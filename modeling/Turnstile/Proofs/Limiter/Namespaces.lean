import Turnstile.Limiter
import Turnstile.Proofs.Run.Chronicle

/-!
# Limiters that count under one key

A key joins the name of an endpoint, the scope of a subject and the text of the
subject, and a colon after each of the first two; the name and the text may have
colons of their own.  Within one limiter the scope is told from the text by its place,
and the limiter for all requests has no name in its keys, so neither confuses two
subjects.  Two limiters for endpoints do where the name of one goes on after the name of
the other with a colon and a scope: the rest of that name and of the key may then be
read as the text of the other's subject.

Main results:

- Theorem `keyFor_eq_iff`: two limiters count two subjects under one key just when the
  limiters have one namespace and the subjects are the same, or the text of one subject
  stands for the rest of a longer name and the other subject.
- Theorem `forEndpoint_apart_iff`: the endpoints whose limiters have no key in common.
- Theorem `login_fills_login_user`: two endpoints, one of which takes the room of the
  other.

Current gaps:

- This module is about keys.  That limiters without a key in common answer as if each
  had the store to itself is shown for the limiter for all requests and one for an
  endpoint, in the module on limiters that share a store.
-/

namespace Turnstile

open Run

/-! ## Texts with a mark before a word and after it -/

section Marked

variable {α : Type} {mark : α}

/-- Before a mark there is all of a word that has no mark in it. -/
theorem word_append_eq_iff {word rest before after : List α} (hword : mark ∉ word) :
    word ++ mark :: rest = before ++ mark :: after ↔
      ∃ more, before = word ++ more ∧ mark :: rest = more ++ mark :: after := by
  constructor
  · intro h
    rcases List.append_eq_append_iff.1 h with ⟨more, hbefore, hrest⟩ | ⟨left, hleft, hafter⟩
    · exact ⟨more, hbefore, hrest⟩
    · cases left with
      | nil => exact ⟨[], by simpa using hleft.symm, by simpa using hafter.symm⟩
      | cons m left =>
          have hmark : mark = m := (List.cons.inj hafter).1
          exact absurd (by simp [hleft, hmark]) hword
  · rintro ⟨more, rfl, hrest⟩
    rw [hrest, List.append_assoc]

/-- Two words without a mark end before the same one. -/
theorem word_append_inj {word word' rest rest' : List α} (hword : mark ∉ word)
    (hword' : mark ∉ word') (h : word ++ mark :: rest = word' ++ mark :: rest') :
    word = word' ∧ rest = rest' := by
  rcases (word_append_eq_iff hword).1 h with ⟨more, hmore, hrest⟩
  cases more with
  | nil => exact ⟨by simpa using hmore.symm, by simpa using hrest⟩
  | cons m more =>
      have hmark : mark = m := (List.cons.inj hrest).1
      exact absurd (by simp [hmore, hmark]) hword'

/-- What follows a beginning may be read from a longer beginning just when the mark and
the word after the shorter one are part of the longer one. -/
theorem marked_eq_marked_of_longer {word rest more after : List α} (hword : mark ∉ word)
    (hmore : more ≠ []) :
    mark :: (word ++ mark :: rest) = more ++ mark :: after ↔
      ∃ c, more = mark :: (word ++ c) ∧ mark :: rest = c ++ mark :: after := by
  cases more with
  | nil => exact absurd rfl hmore
  | cons m more =>
      rw [List.cons_append, List.cons.injEq, word_append_eq_iff hword]
      constructor
      · rintro ⟨rfl, c, rfl, hrest⟩
        exact ⟨c, rfl, hrest⟩
      · rintro ⟨c, hc, hrest⟩
        rcases List.cons.inj hc with ⟨rfl, rfl⟩
        exact ⟨rfl, c, rfl, hrest⟩

/-- Two ways to read a text as a beginning, a word between two marks and a rest are the
same, or the word of one of them lies in the beginning of the other. -/
theorem marked_eq_iff {a b word word' rest rest' : List α} (hword : mark ∉ word)
    (hword' : mark ∉ word') :
    a ++ mark :: (word ++ mark :: rest) = b ++ mark :: (word' ++ mark :: rest') ↔
      (a = b ∧ word = word' ∧ rest = rest') ∨
      (∃ c, b = a ++ mark :: (word ++ c) ∧
        mark :: rest = c ++ mark :: (word' ++ mark :: rest')) ∨
      ∃ c, a = b ++ mark :: (word' ++ c) ∧
        mark :: rest' = c ++ mark :: (word ++ mark :: rest) := by
  constructor
  · intro h
    rcases List.append_eq_append_iff.1 h with ⟨more, rfl, hmore⟩ | ⟨more, rfl, hmore⟩
    all_goals by_cases hnil : more = []
    · subst hnil
      rcases word_append_inj hword hword' (List.cons.inj hmore).2 with ⟨rfl, rfl⟩
      exact .inl ⟨by simp, rfl, rfl⟩
    · rcases (marked_eq_marked_of_longer hword hnil).1 hmore with ⟨c, rfl, hrest⟩
      exact .inr (.inl ⟨c, rfl, hrest⟩)
    · subst hnil
      rcases word_append_inj hword' hword (List.cons.inj hmore).2 with ⟨rfl, rfl⟩
      exact .inl ⟨by simp, rfl, rfl⟩
    · rcases (marked_eq_marked_of_longer hword' hnil).1 hmore with ⟨c, rfl, hrest⟩
      exact .inr (.inr ⟨c, rfl, hrest⟩)
  · rintro (⟨rfl, rfl, rfl⟩ | ⟨c, rfl, hrest⟩ | ⟨c, rfl, hrest⟩)
    · rfl
    · rw [hrest]; simp
    · rw [hrest]; simp

end Marked

/-! ## Keys taken apart -/

namespace Subject

/-- The word that stands for the scope of a subject. -/
def scope : Subject → String
  | .address _ => "ip"
  | .identity _ => "user"

/-- The text of a subject. -/
def text : Subject → String
  | .address text => text
  | .identity text => text

theorem colon_notMem_scope (s : Subject) : ':' ∉ s.scope.toList := by
  cases s <;> simp [scope]

/-- A subject is its scope and its text. -/
theorem eq_iff (s s' : Subject) : s = s' ↔ s.scope = s'.scope ∧ s.text = s'.text := by
  cases s <;> cases s' <;> simp [scope, text]

end Subject

namespace Namespace

/-- The namespace of the limiter for an endpoint, or of the one for all requests. -/
def of : Option String → Namespace
  | none => .standard
  | some endpoint => .ofEndpoint endpoint

/-- A key is the text of the namespace, the scope, a colon and the text of the
subject. -/
theorem toList_key (ns : Namespace) (s : Subject) :
    (ns.key s).toList = ns.text.toList ++ (s.scope.toList ++ ':' :: s.text.toList) := by
  cases s <;> simp [key, Subject.scope, Subject.text]

/-- A key in a namespace that ends in a name and a colon. -/
theorem toList_key_named (start name : String) (s : Subject) :
    (Namespace.key ⟨start ++ name ++ ":"⟩ s).toList =
      start.toList ++ (name.toList ++ ':' :: (s.scope.toList ++ ':' :: s.text.toList)) := by
  have hcolon : (":" : String).toList = [':'] := rfl
  simp only [toList_key, String.toList_append, hcolon, List.append_assoc, List.singleton_append]

/-- A key of a limiter for an endpoint. -/
theorem toList_key_ofEndpoint (endpoint : String) (s : Subject) :
    ((ofEndpoint endpoint).key s).toList = "rate_limit:endpoint:".toList ++
      (endpoint.toList ++ ':' :: (s.scope.toList ++ ':' :: s.text.toList)) :=
  toList_key_named _ endpoint s

/-- In one namespace no two subjects are counted under one key. -/
theorem key_injective (ns : Namespace) {s s' : Subject} (h : ns.key s = ns.key s') : s = s' := by
  have hlist := congrArg String.toList h
  rw [toList_key, toList_key, List.append_cancel_left_eq] at hlist
  rcases word_append_inj s.colon_notMem_scope s'.colon_notMem_scope hlist with ⟨hscope, htext⟩
  exact (s.eq_iff s').2 ⟨String.toList_inj.1 hscope, String.toList_inj.1 htext⟩

/-- The keys of a namespace are told apart by their subjects. -/
theorem key_inj (ns : Namespace) {s s' : Subject} : ns.key s = ns.key s' ↔ s = s' :=
  ⟨ns.key_injective, congrArg ns.key⟩

/-- The limiter for all requests counts under no key of one for an endpoint: the scope
of a subject is not the word that stands before the name of an endpoint. -/
theorem standard_ne_ofEndpoint (endpoint : String) (s s' : Subject) :
    standard.key s ≠ (ofEndpoint endpoint).key s' := by
  intro h
  have hlist := congrArg String.toList h
  have hword : "rate_limit:endpoint:".toList =
      "rate_limit:".toList ++ ("endpoint".toList ++ [':']) := rfl
  rw [toList_key_ofEndpoint, toList_key, hword, standard] at hlist
  simp only [List.append_assoc, List.append_cancel_left_eq, List.cons_append,
    List.nil_append] at hlist
  have hscope := (word_append_inj s.colon_notMem_scope (by decide) hlist).1
  cases s <;> simp [Subject.scope] at hscope

/-- The text of a subject of one endpoint stands for the rest of a longer name of an
endpoint and a subject of that one: the longer name is the shorter one, a colon and the
scope of the first subject, and perhaps more. -/
def StandsFor (endpoint : String) (s : Subject) (longer : String) (s' : Subject) : Prop :=
  ∃ more, longer = endpoint ++ ":" ++ s.scope ++ more ∧
    ":" ++ s.text = more ++ ":" ++ s'.scope ++ ":" ++ s'.text

/-- Which text stands for which, by the characters. -/
theorem standsFor_iff (endpoint longer : String) (s s' : Subject) :
    StandsFor endpoint s longer s' ↔
      ∃ c, longer.toList = endpoint.toList ++ ':' :: (s.scope.toList ++ c) ∧
        ':' :: s.text.toList = c ++ ':' :: (s'.scope.toList ++ ':' :: s'.text.toList) := by
  have hcolon : (":" : String).toList = [':'] := rfl
  constructor
  · rintro ⟨more, rfl, htext⟩
    refine ⟨more.toList, by simp [hcolon], ?_⟩
    simpa [hcolon] using congrArg String.toList htext
  · rintro ⟨c, hlonger, htext⟩
    refine ⟨String.ofList c, ?_, ?_⟩
    · rw [← String.toList_inj, hlonger]; simp [hcolon]
    · rw [← String.toList_inj]; simpa [hcolon] using htext

/-- When two endpoints have a key in common. -/
theorem ofEndpoint_key_eq_iff (endpoint endpoint' : String) (s s' : Subject) :
    (ofEndpoint endpoint).key s = (ofEndpoint endpoint').key s' ↔
      (endpoint = endpoint' ∧ s = s') ∨ StandsFor endpoint s endpoint' s' ∨
        StandsFor endpoint' s' endpoint s := by
  rw [← String.toList_inj, toList_key_ofEndpoint, toList_key_ofEndpoint,
    List.append_cancel_left_eq, marked_eq_iff s.colon_notMem_scope s'.colon_notMem_scope,
    standsFor_iff, standsFor_iff, s.eq_iff, String.toList_inj, String.toList_inj,
    String.toList_inj]

/-- A name of an endpoint goes on after a shorter one with a colon and a scope, and then
with nothing, or with a colon and anything. -/
def GoesOn (endpoint longer : String) : Prop :=
  ∃ s : Subject, longer = endpoint ++ ":" ++ s.scope ∨
    ∃ more, longer = endpoint ++ ":" ++ s.scope ++ ":" ++ more

/-- Names that go on in that way are those for which some text stands. -/
theorem goesOn_iff (endpoint longer : String) :
    GoesOn endpoint longer ↔ ∃ s s', StandsFor endpoint s longer s' := by
  constructor
  · rintro ⟨s, hlonger⟩
    have hscoped : ∀ text, ∃ t : Subject, t.scope = s.scope ∧ t.text = text := by
      intro text
      cases s with
      | address _ => exact ⟨.address text, rfl, rfl⟩
      | identity _ => exact ⟨.identity text, rfl, rfl⟩
    rcases hlonger with rfl | ⟨more, rfl⟩
    · rcases hscoped (s.scope ++ ":" ++ s.text) with ⟨t, hscope, htext⟩
      refine ⟨t, s, "", by rw [hscope, String.append_empty], ?_⟩
      rw [htext, String.empty_append, String.append_assoc, String.append_assoc, String.append_assoc]
    · rcases hscoped (more ++ ":" ++ s.scope ++ ":" ++ s.text) with ⟨t, hscope, htext⟩
      refine ⟨t, s, ":" ++ more, by rw [hscope, ← String.append_assoc], ?_⟩
      rw [htext]
      simp only [String.append_assoc]
  · rintro ⟨s, s', more, rfl, htext⟩
    refine ⟨s, ?_⟩
    have hlist := congrArg String.toList htext
    cases hmore : more.toList with
    | nil =>
        have hempty : more = "" := String.toList_inj.1 hmore
        exact .inl (by rw [hempty, String.append_empty])
    | cons c rest =>
        simp only [String.toList_append, hmore, List.cons_append] at hlist
        have hcolon : ':' = c := (List.cons.inj hlist).1
        have hcons : more = ":" ++ String.ofList rest := by
          rw [← String.toList_inj, hmore, ← hcolon]; simp
        exact .inr ⟨String.ofList rest, by rw [hcons, ← String.append_assoc]⟩

end Namespace

/-! ## Limiters -/

namespace Limiter

/-- Two limiters, each for all requests or for an endpoint, count two subjects under one
key just when they have one namespace and the subjects are the same, or both are for
endpoints and the text of one subject stands for the rest of the other's name and the
other subject. -/
theorem keyFor_eq_iff (config config' : LimiterConfig) (endpoint endpoint' : Option String)
    (s s' : Subject) :
    (Limiter.mk config (.of endpoint)).keyFor s = (Limiter.mk config' (.of endpoint')).keyFor s' ↔
      (endpoint = endpoint' ∧ s = s') ∨
      ∃ name name', endpoint = some name ∧ endpoint' = some name' ∧
        (Namespace.StandsFor name s name' s' ∨ Namespace.StandsFor name' s' name s) := by
  cases endpoint with
  | none =>
      cases endpoint' with
      | none => simp [keyFor, Namespace.of, Namespace.key_inj]
      | some name' => simp [keyFor, Namespace.of, Namespace.standard_ne_ofEndpoint]
  | some name =>
      cases endpoint' with
      | none => simp [keyFor, Namespace.of, (Namespace.standard_ne_ofEndpoint name s' s).symm]
      | some name' =>
          have hkey := Namespace.ofEndpoint_key_eq_iff name name' s s'
          simpa [keyFor, Namespace.of] using hkey

/-- A limiter for one endpoint has no key in common with one for another just when
neither name goes on after the other with a scope. -/
theorem forEndpoint_apart_iff (name name' : String) (limit limit' : Nat) (window window' : Span) :
    (∀ s s', (forEndpoint name limit window).keyFor s ≠
      (forEndpoint name' limit' window').keyFor s') ↔
      name ≠ name' ∧ ¬ Namespace.GoesOn name name' ∧ ¬ Namespace.GoesOn name' name := by
  have hkey : ∀ s s', (forEndpoint name limit window).keyFor s =
      (forEndpoint name' limit' window').keyFor s' ↔ _ :=
    Namespace.ofEndpoint_key_eq_iff name name'
  rw [Namespace.goesOn_iff, Namespace.goesOn_iff]
  constructor
  · intro hapart
    refine ⟨?_, ?_, ?_⟩
    · rintro rfl
      exact hapart (.address "") (.address "") ((hkey _ _).2 (.inl ⟨rfl, rfl⟩))
    · rintro ⟨s, s', hstands⟩
      exact hapart s s' ((hkey s s').2 (.inr (.inl hstands)))
    · rintro ⟨s', s, hstands⟩
      exact hapart s s' ((hkey s s').2 (.inr (.inr hstands)))
  · rintro ⟨hne, hnext, hnext'⟩ s s' hsame
    rcases (hkey s s').1 hsame with ⟨rfl, _⟩ | hstands | hstands
    · exact hne rfl
    · exact hnext ⟨s, s', hstands⟩
    · exact hnext' ⟨s', s, hstands⟩

/-! ## Two endpoints with one counter -/

/-- The limiter for an endpoint that lets one request of a subject through in a minute. -/
def oneAMinute (endpoint : String) : Limiter :=
  .forEndpoint endpoint 1 (.ofSeconds 60)

/-- One subject asks at one endpoint, and then another subject at another. -/
def oneAfterTheOther (endpoint endpoint' : String) (s s' : Subject) :
    State (Except Store.Error Decision) :=
  let asks (l : Limiter) (s : Subject) : Run.Task (Except Store.Error Decision) :=
    .start (l.allow s) ⟨none, fun _ _ => none⟩ 0 none
  State.through
    ⟨.start (.start ⟨1704067200, 0⟩ none) .faultless,
      [asks (oneAMinute endpoint) s, asks (oneAMinute endpoint') s'], []⟩
    [.move (.resume 0), .move (.resume 1)]

/-- Whether somebody was let through in the end. -/
def isLetThrough : Ending (Except Store.Error Decision) × Nat → Bool
  | (.result (.ok decision), _) => decision.allowed
  | _ => false

/-- An identity that begins as an address does takes the room of an address at an
endpoint whose name goes on with the scope of identities; where the name does not, it
leaves that room alone. -/
theorem login_fills_login_user :
    (oneAMinute "login").ns ≠ (oneAMinute "login:user").ns ∧
      (oneAMinute "login").keyFor (.identity "ip:10.0.0.1") =
        (oneAMinute "login:user").keyFor (.address "10.0.0.1") ∧
      ((oneAfterTheOther "login" "login:user" (.identity "ip:10.0.0.1")
        (.address "10.0.0.1")).ended? 1).map isLetThrough = some false ∧
      ((oneAfterTheOther "login" "login/user" (.identity "ip:10.0.0.1")
        (.address "10.0.0.1")).ended? 1).map isLetThrough = some true := by
  refine ⟨by decide, by decide, ?_, ?_⟩
  · decide +kernel
  · decide +kernel

end Limiter

end Turnstile
