import Turnstile.Http.Headers

/-!
# Media types

Whether the content type of a request announces JSON: the type is
`application`, and the subtype is `json`, alone or before a structured suffix,
or has the structured suffix `+json`.  Letter case does not matter and
parameters are allowed.
-/

namespace Turnstile.Http.MediaType

/-- A run of token characters, and what follows. -/
def token (cs : List Char) : List Char × List Char :=
  (cs.takeWhile isTokenChar, cs.dropWhile isTokenChar)

/-! ## Parameters

A parameter is a name, an equals sign and a value; a semicolon separates it from
the next one.  Each reader gives what follows that semicolon, or nothing at the
end of the text. -/

/-- What follows a value that is a token.  An empty one may only stand at the
end. -/
def afterPlain (cs : List Char) : Option (List Char) :=
  let value := token cs
  match value.2 with
  | [] => some []
  | ';' :: rest => if value.1.isEmpty then none else some rest
  | _ => none

/-- A character that may stand inside quotes. -/
def isQuotable (c : Char) : Bool := 32 ≤ c.toNat && c.toNat != 127

/-- What follows a value in quotes, after the opening one.  A quote closes the
value unless it is the first character of it; spaces may follow it. -/
def afterQuoted : List Char → Option (List Char)
  | [] => none
  | first :: rest =>
      if isQuotable first then
        match rest.dropWhile fun c => isQuotable c && c != '"' with
        | '"' :: rest =>
            match rest.dropWhile (· == ' ') with
            | [] => some []
            | ';' :: rest => some rest
            | _ => none
        | _ => none
      else none

/-- What follows a parameter. -/
def afterParameter (cs : List Char) : Option (List Char) :=
  let name := token cs
  match name.2 with
  | '=' :: rest =>
      if name.1.isEmpty then none
      else
        match rest with
        | '"' :: rest => afterQuoted rest
        | rest => afterPlain rest
  | _ => none

/-- Whether a text is a list of parameters; spaces may stand before each and at
the end.  `fuel` is a list with an item for each parameter at least. -/
def areParameters (fuel cs : List Char) : Bool :=
  match fuel, cs.dropWhile (· == ' ') with
  | _, [] => true
  | [], _ :: _ => false
  | _ :: fuel, cs =>
      match afterParameter cs with
      | some rest => areParameters fuel rest
      | none => false

/-! ## Types -/

/-- Whether a subtype is `json` before its last plus sign or after it.  A plus
sign in front of everything else separates nothing. -/
def isJsonSubtype (subtype : List Char) : Bool :=
  let subtype := subtype.map lowerChar
  let suffix := (subtype.reverse.takeWhile (· != '+')).reverse
  let stem := subtype.take (subtype.length - suffix.length - 1)
  if suffix.length < subtype.length ∧ !stem.isEmpty then
    suffix = ['j', 's', 'o', 'n'] || stem = ['j', 's', 'o', 'n']
  else subtype = ['j', 's', 'o', 'n']

/-- Whether a content type announces JSON. -/
def isJson (text : String) : Bool :=
  let type := token text.toList
  match type.2 with
  | '/' :: rest =>
      let subtype := token rest
      (type.1.map lowerChar = "application".toList) && isJsonSubtype subtype.1 &&
        match subtype.2 with
        | [] => true
        | ';' :: rest => areParameters rest rest
        | _ => false
  | _ => false

/-- Whether the headers of a request announce a body of JSON. -/
def announcesJson (headers : Headers) : Bool :=
  match (headers.get? "content-type").bind visibleText? with
  | some text => isJson text
  | none => false

end Turnstile.Http.MediaType
