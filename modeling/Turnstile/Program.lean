import Turnstile.Event.Basic
import Turnstile.Http.Message
import Turnstile.Store.Basic

/-!
# Programs over a store

What a guard does with a request is a program: a tree whose nodes are what it
asks of its surroundings, each followed by a continuation for the answer.  A
program says nothing of how long an answer takes or of who else uses the store
meanwhile; that is up to the run that it takes part in.

Main results:

- `pure_bind`, `bind_pure`, `bind_assoc`: programs form a monad.
-/

namespace Turnstile

/-- A program with a result in `α`. -/
inductive Program (α : Type) where
  /-- The program ends with a result. -/
  | done (result : α)
  /-- The program breaks off. -/
  | crash
  /-- Calls the store, and waits for the answer until the deadline. -/
  | call (call : Store.Call) (deadline : Span)
      (next : Except Store.Error Store.Answer → Program α)
  /-- Waits for a span of time. -/
  | sleep (span : Span) (next : Program α)
  /-- Reads the wall clock. -/
  | now (next : Timestamp → Program α)
  /-- Reports an event. -/
  | emit (event : Event) (next : Program α)
  /-- Hands a request to the handler behind the guards, and waits for its
  response. -/
  | serve (request : Http.Request) (next : Http.Response → Program α)
  /-- Draws a number that was never drawn before. -/
  | fresh (next : Nat → Program α)
  /-- From here on the call is owed to the store if the program is abandoned. -/
  | hold (owed : Store.Call) (next : Program α)
  /-- From here on nothing is owed. -/
  | unhold (next : Program α)

namespace Program

variable {α β γ : Type}

/-- Goes on with the result of a program. -/
def bind : Program α → (α → Program β) → Program β
  | done a, f => f a
  | crash, _ => crash
  | call c deadline next, f => call c deadline fun answer => (next answer).bind f
  | sleep span next, f => sleep span (next.bind f)
  | now next, f => now fun t => (next t).bind f
  | emit event next, f => emit event (next.bind f)
  | serve request next, f => serve request fun response => (next response).bind f
  | fresh next, f => fresh fun n => (next n).bind f
  | hold owed next, f => hold owed (next.bind f)
  | unhold next, f => unhold (next.bind f)

instance : Monad Program where
  pure := done
  bind := bind

/-! ## Laws -/

@[simp]
theorem pure_bind (a : α) (f : α → Program β) : (done a).bind f = f a := rfl

@[simp]
theorem bind_pure (p : Program α) : p.bind done = p := by
  induction p with
  | done => rfl
  | crash => rfl
  | call c d next ih => simp [bind, ih]
  | sleep s next ih => simp [bind, ih]
  | now next ih => simp [bind, ih]
  | emit e next ih => simp [bind, ih]
  | serve r next ih => simp [bind, ih]
  | fresh next ih => simp [bind, ih]
  | hold o next ih => simp [bind, ih]
  | unhold next ih => simp [bind, ih]

theorem bind_assoc (p : Program α) (f : α → Program β) (g : β → Program γ) :
    (p.bind f).bind g = p.bind fun a => (f a).bind g := by
  induction p with
  | done => rfl
  | crash => rfl
  | call c d next ih => simp [bind, ih]
  | sleep s next ih => simp [bind, ih]
  | now next ih => simp [bind, ih]
  | emit e next ih => simp [bind, ih]
  | serve r next ih => simp [bind, ih]
  | fresh next ih => simp [bind, ih]
  | hold o next ih => simp [bind, ih]
  | unhold next ih => simp [bind, ih]

/-! ## Single steps -/

/-- Calls the store under a deadline. -/
def ask (c : Store.Call) (deadline : Span) : Program (Except Store.Error Store.Answer) :=
  call c deadline done

/-- The reading of the wall clock. -/
def clock : Program Timestamp :=
  now done

/-- Reports an event. -/
def report (event : Event) : Program Unit :=
  emit event (done ())

/-- Waits for a span of time. -/
def pause (span : Span) : Program Unit :=
  sleep span (done ())

/-- A number that was never drawn before. -/
def draw : Program Nat :=
  fresh done

end Program

end Turnstile
