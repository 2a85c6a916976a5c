import Turnstile.Text.Decimal

/-!
# Tokens and methods

A token of HTTP is a non-empty run of the characters that RFC 9110 allows in
names.  Methods and header names are tokens; methods keep the case of their
letters.
-/

namespace Turnstile.Http

/-- Whether a character may occur in a token. -/
def isTokenChar (c : Char) : Bool :=
  let n := c.toNat
  (48 ≤ n && n ≤ 57) || (65 ≤ n && n ≤ 90) || (94 ≤ n && n ≤ 122) ||
  n == 33 || (35 ≤ n && n ≤ 39) || n == 42 || n == 43 || n == 45 || n == 46 ||
  n == 124 || n == 126

/-- Whether a text is a token. -/
def isToken (text : String) : Bool :=
  let cs := text.toList
  !cs.isEmpty && cs.all isTokenChar

/-- The lower-case form of a letter of ASCII; other characters stay. -/
def lowerChar (c : Char) : Char :=
  if 65 ≤ c.toNat ∧ c.toNat ≤ 90 then Char.ofNat (c.toNat + 32) else c

/-- The upper-case form of a letter of ASCII; other characters stay. -/
def upperChar (c : Char) : Char :=
  if 97 ≤ c.toNat ∧ c.toNat ≤ 122 then Char.ofNat (c.toNat - 32) else c

/-- A text with the letters of ASCII in lower case. -/
def lower (text : String) : String :=
  String.ofList (text.toList.map lowerChar)

/-- A text with the letters of ASCII in upper case. -/
def upper (text : String) : String :=
  String.ofList (text.toList.map upperChar)

/-- A request method. -/
structure Method where
  name : String
  deriving DecidableEq

/-- The method that a text names, if the text is a token. -/
def Method.ofText? (text : String) : Option Method :=
  if isToken text then some ⟨text⟩ else none

/-- The method GET. -/
def Method.get : Method := ⟨"GET"⟩

/-- The method HEAD. -/
def Method.head : Method := ⟨"HEAD"⟩

/-- The method POST. -/
def Method.post : Method := ⟨"POST"⟩

/-- The method PUT. -/
def Method.put : Method := ⟨"PUT"⟩

/-- The method PATCH. -/
def Method.patch : Method := ⟨"PATCH"⟩

/-- The method DELETE. -/
def Method.delete : Method := ⟨"DELETE"⟩

/-- The method CONNECT. -/
def Method.connect : Method := ⟨"CONNECT"⟩

end Turnstile.Http
