/-!
# Keys of rate windows

Every limiter counts the requests of a subject under one key, which names the
limiter's namespace, the scope of the subject and the subject itself.
-/

namespace Turnstile

/-- Who is limited: the callers at a network address, or a caller with a name.
The two scopes have counters of their own. -/
inductive Subject where
  | address (text : String)
  | identity (text : String)
  deriving DecidableEq

/-- The rest of a text after the given beginning, if it has it. -/
def afterStart? (start text : String) : Option String :=
  let s := start.toList
  let t := text.toList
  if s.isPrefixOf t then some (String.ofList (t.drop s.length)) else none

/-- The subject that a text names: an identity after `user:`, an address after
`ip:` or without a scope. -/
def Subject.ofText (text : String) : Subject :=
  match afterStart? "user:" text with
  | some name => .identity name
  | none => .address ((afterStart? "ip:" text).getD text)

/-- The namespace of the window keys of a limiter. -/
structure Namespace where
  text : String
  deriving DecidableEq

namespace Namespace

/-- The namespace of the limiter for all requests. -/
def standard : Namespace := ⟨"rate_limit:"⟩

/-- The namespace of a limiter for one endpoint. -/
def ofEndpoint (endpoint : String) : Namespace :=
  ⟨"rate_limit:endpoint:" ++ endpoint ++ ":"⟩

/-- The key of the window of a subject. -/
def key (ns : Namespace) : Subject → String
  | .address text => ns.text ++ "ip:" ++ text
  | .identity text => ns.text ++ "user:" ++ text

end Namespace

end Turnstile
