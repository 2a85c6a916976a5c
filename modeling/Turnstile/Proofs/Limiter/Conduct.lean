import Turnstile.Limiter
import Turnstile.Proofs.Run.Account
import Turnstile.Proofs.Store.Sliding

/-!
# The conduct of those who use a limiter

Whoever asks a limiter for room reads the clock, and then asks the store to
record the request under the stamp that it read.  It is let through if the store
admitted the request or, where the limiter goes on without the store, if the
store failed.  Whoever only asks how much room there is changes nothing.

Main results:

- Theorem `allow_keeps`: whoever asks for room keeps these rules.
- Theorem `allow_verdict`, `verdict_iff`: what the limiter answers, by what is noted of its
  question.
- Theorem `usage_spares`, `remaining_spares`: whoever asks how much room there is
  leaves every window alone.
-/

namespace Turnstile.Limiter

open Run
open Store (Answer Call)

variable {α : Type}

/-! ## The rules -/

/-- The call that asks the store for room. -/
def asking (l : Limiter) (subject : Subject) (now : Timestamp) (ttl : Span) : Call :=
  .recordInWindow (l.keyFor subject) now.stamp l.config.window (l.limitFor subject) ttl

/-- What somebody noted whose request the store answered. -/
def answered (l : Limiter) (subject : Subject) (now : Timestamp) (ttl : Span) (answer : Answer) :
    List Note :=
  [.told (l.asking subject now ttl) (.ok answer), .done (l.asking subject now ttl) answer,
    .sent (l.asking subject now ttl), .read now, .resumed]

/-- What is noted of a question, whatever the store answered. -/
def inquired (l : Limiter) (subject : Subject) (now : Timestamp) (ttl : Span) (answer : Answer) :
    List Note :=
  [.told (l.asking subject now ttl) (.ok answer), .done (l.asking subject now ttl) answer,
    .sent (l.asking subject now ttl), .read now]

/-- What is noted of a question that the store failed to answer. -/
def unanswered (l : Limiter) (subject : Subject) (now : Timestamp) (ttl : Span)
    (answer : Option Answer) (error : Store.Error) : List Note :=
  [.emitted (.storeFailure .rateLimit error.message (l.config.failurePolicy = .failOpen)),
    .told (l.asking subject now ttl) (.error error), outcome (l.asking subject now ttl) answer,
    .sent (l.asking subject now ttl), .read now]

/-- The decision to let a request in that the store admitted. -/
def granting (l : Limiter) (subject : Subject) (now : Timestamp) (outcome : Store.WindowOutcome) :
    Decision :=
  admission (l.limitFor subject) (l.limitFor subject - outcome.count) (l.resetFrom now)

/-- The decision on a request that the store refused. -/
def refusing (l : Limiter) (subject : Subject) (now : Timestamp) (outcome : Store.WindowOutcome) :
    Decision :=
  ⟨false, l.limitFor subject, 0, l.resetFrom now, some (l.retryAfter now.stamp outcome.oldest)⟩

/-- What a limiter answers, by what it noted of its question: the store admitted the
request or refused it, or it failed and the limiter goes on without it or gives up. -/
inductive Verdict (l : Limiter) (subject : Subject) :
    List Note → Except Store.Error Decision → Prop where
  | admitted {now : Timestamp} {ttl : Span} {answer : Answer}
      (httl : l.config.window.add? l.config.safetyMargin = some ttl)
      (hadmitted : (outcomeOf answer).admitted = true) :
      Verdict l subject (l.inquired subject now ttl answer)
        (.ok (l.granting subject now (outcomeOf answer)))
  | refused {now : Timestamp} {ttl : Span} {answer : Answer}
      (httl : l.config.window.add? l.config.safetyMargin = some ttl)
      (hrefused : (outcomeOf answer).admitted = false) :
      Verdict l subject
        (.emitted (.rateLimited (l.keyFor subject) (l.limitFor subject)) ::
          l.inquired subject now ttl answer)
        (.ok (l.refusing subject now (outcomeOf answer)))
  | wavedThrough {now : Timestamp} {ttl : Span} {answer : Option Answer} {error : Store.Error}
      (httl : l.config.window.add? l.config.safetyMargin = some ttl)
      (hopen : l.config.failurePolicy = .failOpen) :
      Verdict l subject (l.unanswered subject now ttl answer error)
        (.ok (admission (l.limitFor subject) (l.limitFor subject) (l.resetFrom now)))
  | failed {now : Timestamp} {ttl : Span} {answer : Option Answer} {error : Store.Error}
      (httl : l.config.window.add? l.config.safetyMargin = some ttl)
      (hclosed : l.config.failurePolicy ≠ .failOpen) :
      Verdict l subject (l.unanswered subject now ttl answer error) (.error error)

/-- Whoever asks for room asks once, under the stamp that it read. -/
def mayAsk (l : Limiter) (subject : Subject) (past : List Note) : Note → Prop
  | .sent call => ∃ now ttl, l.config.window.add? l.config.safetyMargin = some ttl ∧
      past = [.read now, .resumed] ∧ call = l.asking subject now ttl
  | .held _ => False
  | _ => True

/-- Whoever is let through was admitted by the store, or the store failed and the
limiter goes on without it. -/
def mayPass (l : Limiter) (subject : Subject) (past : List Note) :
    Except Store.Error Decision → Prop
  | .ok decision => decision.allowed = true →
      (∃ now ttl outcome, l.config.window.add? l.config.safetyMargin = some ttl ∧
        past = l.answered subject now ttl (.window outcome) ∧ outcome.admitted = true) ∨
      (l.config.failurePolicy = .failOpen ∧ ∃ call error, .told call (.error error) ∈ past)
  | .error _ => True

/-- The rules of somebody who asks for room. -/
def rules (l : Limiter) (subject : Subject) : Pact (Except Store.Error Decision) :=
  ⟨l.mayAsk subject, l.mayPass subject⟩

/-- A program leaves the window under a key alone: it neither records requests
there nor deletes it, nor leaves a call behind that does. -/
def Spares (key : String) (p : Program α) : Prop :=
  Makes (Call.SparesWindow key) (Call.SparesWindow key) p

/-! ## Asking for room -/

section

variable {handler : Handler}

/-- Asking for room reads the clock before it asks the store. -/
theorem allow_eq (l : Limiter) (subject : Subject) : l.allow subject = .now fun now =>
    match l.config.window.add? l.config.safetyMargin with
    | none => .crash
    | some ttl => .call (l.asking subject now ttl) l.config.storeTimeout fun answer =>
        match answer with
        | .error error => l.onStoreFailure (l.limitFor subject) now error
        | .ok answer => l.decide subject (l.limitFor subject) now (outcomeOf answer) >>= fun decision =>
            pure (.ok decision) := rfl

/-- After a failure of the store only an event is left to be reported. -/
theorem onStoreFailure_eq (l : Limiter) (limit : Nat) (now : Timestamp) (error : Store.Error) :
    ∃ event result, l.onStoreFailure limit now error = .emit event (.done result) := by
  let event : Event :=
    .storeFailure .rateLimit error.message (l.config.failurePolicy = .failOpen)
  by_cases hopen : l.config.failurePolicy = .failOpen
  · exact ⟨event, .ok (admission limit limit (l.resetFrom now)),
      congrArg (Program.emit event) (if_pos hopen)⟩
  · exact ⟨event, .error error, congrArg (Program.emit event) (if_neg hopen)⟩

/-- After an answer of the store at most an event is left to be reported. -/
theorem decide_eq (l : Limiter) (subject : Subject) (limit : Nat) (now : Timestamp)
    (outcome : Store.WindowOutcome) :
    (∃ decision, l.decide subject limit now outcome = .done decision) ∨
      ∃ event decision, l.decide subject limit now outcome = .emit event (.done decision) := by
  unfold decide
  by_cases hadmitted : outcome.admitted = true
  · exact Or.inl ⟨_, if_pos hadmitted⟩
  · exact Or.inr ⟨_, _, if_neg hadmitted⟩

/-- Whoever is let through by an answer of the store was admitted. -/
theorem keeps_decide (l : Limiter) {subject : Subject} {now : Timestamp} {ttl : Span}
    (httl : l.config.window.add? l.config.safetyMargin = some ttl) (answer : Answer) :
    Keeps handler (l.rules subject) (l.answered subject now ttl answer)
      (l.decide subject (l.limitFor subject) now (outcomeOf answer) >>= fun decision =>
        pure (.ok decision)) := by
  unfold decide
  by_cases hadmitted : (outcomeOf answer).admitted = true
  · rw [if_pos hadmitted]
    intro _
    cases answer with
    | window outcome => exact Or.inl ⟨now, ttl, outcome, httl, rfl, hadmitted⟩
    | _ => exact nomatch hadmitted
  · rw [if_neg hadmitted]
    exact ⟨trivial, fun hallowed => nomatch hallowed⟩

/-- After a failure of the store, only a limiter that goes on without it lets a
request through. -/
theorem keeps_onStoreFailure (l : Limiter) {subject : Subject} {now : Timestamp} {limit : Nat}
    {past : List Note} {call : Call} {error : Store.Error}
    (htold : .told call (.error error) ∈ past) :
    Keeps handler (l.rules subject) past (l.onStoreFailure limit now error) := by
  refine ⟨trivial, ?_⟩
  by_cases hopen : l.config.failurePolicy = .failOpen
  · simp only [hopen, if_true]
    intro _
    exact Or.inr ⟨hopen, call, error, List.mem_cons_of_mem _ htold⟩
  · simp only [hopen, if_false]
    exact trivial

/-- Whoever asks for room keeps the rules. -/
theorem allow_keeps (l : Limiter) (subject : Subject) :
    KeepsFromStart handler (l.rules subject) (l.allow subject) := by
  refine ⟨trivial, ?_⟩
  rw [allow_eq]
  intro now
  cases httl : l.config.window.add? l.config.safetyMargin with
  | none => exact trivial
  | some ttl =>
      refine ⟨⟨now, ttl, httl, rfl, rfl⟩, ?_⟩
      intro answer
      refine ⟨trivial, ?_⟩
      intro result hreports
      cases result with
      | error error => exact l.keeps_onStoreFailure List.mem_cons_self
      | ok a =>
          have hanswer : answer = some a := hreports
          subst hanswer
          exact l.keeps_decide httl a

/-- A limiter answers as the store did, or as it is to go on without it. -/
theorem allow_verdict (l : Limiter) (subject : Subject) (past : List Note) :
    Keeps handler (.ending fun newer result => ∃ notes, newer = notes ++ past ∧
      l.Verdict subject notes result) past (l.allow subject) := by
  rw [allow_eq]
  intro now
  cases httl : l.config.window.add? l.config.safetyMargin with
  | none => exact trivial
  | some ttl =>
      refine ⟨trivial, fun answer => ⟨trivial, fun result hreports => ?_⟩⟩
      cases result with
      | error error =>
          dsimp only
          unfold onStoreFailure
          refine ⟨trivial, ?_⟩
          by_cases hopen : l.config.failurePolicy = .failOpen
          · have hverdict : l.Verdict subject (l.unanswered subject now ttl answer error) _ :=
              .wavedThrough httl hopen
            simp only [unanswered, hopen] at hverdict ⊢
            exact ⟨_, rfl, hverdict⟩
          · have hverdict : l.Verdict subject (l.unanswered subject now ttl answer error) _ :=
              .failed httl hopen
            simp only [unanswered, hopen] at hverdict ⊢
            exact ⟨_, rfl, hverdict⟩
      | ok a =>
          have hanswer : answer = some a := hreports
          subst hanswer
          dsimp only
          unfold decide
          by_cases hadmitted : (outcomeOf a).admitted = true
          · rw [if_pos hadmitted]
            exact ⟨_, rfl, .admitted httl hadmitted⟩
          · rw [if_neg hadmitted]
            exact ⟨trivial, _, rfl, .refused httl (Bool.eq_false_iff.2 hadmitted)⟩

/-- A limiter whose question the store answered goes on to decide. -/
theorem inquired_path (l : Limiter) (subject : Subject) (now : Timestamp) {ttl : Span}
    (httl : l.config.window.add? l.config.safetyMargin = some ttl) (answer : Answer) :
    Path handler ⟨.going (l.allow subject), none⟩ (l.inquired subject now ttl answer)
      ⟨.going (l.decide subject (l.limitFor subject) now (outcomeOf answer) >>= fun decision =>
        pure (.ok decision)), none⟩ := by
  have hread : Path handler ⟨.going (l.allow subject), none⟩ [.read now] _ := Path.single .read
  rw [httl] at hread
  have hreports : Reports (some answer) (.ok answer) := rfl
  exact ((hread.step .sent).step .done).step (.told hreports)

/-- A limiter whose question failed goes on to that. -/
theorem unanswered_path (l : Limiter) (subject : Subject) (now : Timestamp) {ttl : Span}
    (httl : l.config.window.add? l.config.safetyMargin = some ttl) (answer : Option Answer)
    (error : Store.Error) :
    Path handler ⟨.going (l.allow subject), none⟩ (l.unanswered subject now ttl answer error)
      ⟨.going (if l.config.failurePolicy = .failOpen then
        .done (.ok (admission (l.limitFor subject) (l.limitFor subject) (l.resetFrom now)))
        else .done (.error error)), none⟩ := by
  have hread : Path handler ⟨.going (l.allow subject), none⟩ [.read now] _ := Path.single .read
  rw [httl] at hread
  have hreports : Reports answer (.error error) := trivial
  cases answer with
  | none => exact (((hread.step .sent).step .lost).step (.told hreports)).step .emitted
  | some a => exact (((hread.step .sent).step .done).step (.told hreports)).step .emitted

/-- A limiter comes to an answer just after the notes of a verdict. -/
theorem verdict_iff {l : Limiter} {subject : Subject} {notes : List Note}
    {result : Except Store.Error Decision} : l.Verdict subject notes result ↔
      Path handler ⟨.going (l.allow subject), none⟩ notes ⟨.going (.done result), none⟩ := by
  constructor
  · intro hverdict
    cases hverdict with
    | @admitted now ttl answer httl hadmitted =>
        have hpath : Path handler _ _ _ := l.inquired_path subject now httl answer
        unfold decide at hpath
        rw [if_pos hadmitted] at hpath
        exact hpath
    | @refused now ttl answer httl hrefused =>
        have hpath : Path handler _ _ _ := l.inquired_path subject now httl answer
        unfold decide at hpath
        rw [if_neg (Bool.eq_false_iff.1 hrefused)] at hpath
        exact hpath.step .emitted
    | @wavedThrough now ttl answer error httl hopen =>
        have hpath : Path handler _ _ _ := l.unanswered_path subject now httl answer error
        rw [if_pos hopen] at hpath
        exact hpath
    | @failed now ttl answer error httl hclosed =>
        have hpath : Path handler _ _ _ := l.unanswered_path subject now httl answer error
        rw [if_neg hclosed] at hpath
        exact hpath
  · intro hpath
    rcases (conduct_of_path ⟨trivial, l.allow_verdict subject [.resumed]⟩
      ((Path.single .resumed).append hpath)).2 with ⟨notes', heq, hverdict⟩
    rw [List.append_cancel_right heq]
    exact hverdict

end

/-! ## Leaving a window alone -/

/-- Whoever asks for room makes no other call. -/
theorem allow_makes (l : Limiter) (subject : Subject) {made owed : Call → Prop}
    (hmade : ∀ now ttl, l.config.window.add? l.config.safetyMargin = some ttl →
      made (l.asking subject now ttl)) : Makes made owed (l.allow subject) := by
  rw [allow_eq]
  intro now
  cases httl : l.config.window.add? l.config.safetyMargin with
  | none => exact trivial
  | some ttl =>
      refine ⟨hmade now ttl httl, ?_⟩
      intro result
      cases result with
      | error error =>
          rcases l.onStoreFailure_eq (l.limitFor subject) now error with ⟨event, answer, heq⟩
          simp only [heq]
          exact trivial
      | ok a =>
          rcases l.decide_eq subject (l.limitFor subject) now (outcomeOf a) with
            ⟨decision, heq⟩ | ⟨event, decision, heq⟩
          · simp only [heq]
            exact trivial
          · simp only [heq]
            exact trivial

/-- Whoever counts the requests leaves every window alone. -/
theorem usage_spares (l : Limiter) (subject : Subject) (key : String) :
    Spares key (l.usage subject) :=
  fun _ => ⟨trivial, fun _ => trivial⟩

/-- Whoever asks how much room there is leaves every window alone. -/
theorem remaining_spares (l : Limiter) (subject : Subject) (key : String) :
    Spares key (l.remaining subject) :=
  (l.usage_spares subject key).bind fun _ _ => trivial

end Turnstile.Limiter
