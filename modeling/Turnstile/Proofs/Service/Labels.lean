import Turnstile.Proofs.Limiter.Retry
import Turnstile.Proofs.Service.Charging

/-!
# What the headers of a response say

The admission speaks of a request in a few headers of the response.  The handler, or the
response that was recorded once, may have used the same names, any number of times; what
the caller is told under them is about its own request all the same.

One header says whether the response is a replay.  Three of them tell the limit of the
caller, by what the limiter decided on this very request; if it could not decide, the
limit itself is all that is told.  A caller that is refused is told besides when to come
back.

Main results:

- Theorem `Keeps.answered`: a program that has handed a request over and ends has the
  response.
- Theorem `Admission.guard_labels`: the admission tells what the limiter answered.
- Theorem `Guest.labels_describe_request`: what every guest that is answered is told in
  those headers, in every run.
-/

namespace Turnstile

open Run
open Once (Finds)
open Store (Answer Call)

/-! ## Labels -/

namespace Decision

end Decision

/-- A program that has handed a request over and ends has a response of its handler, and
one that has handed nothing over has none. -/
theorem Run.Keeps.answered {α : Type} {handler : Handler} {past : List Note}
    (hpast : handedOver past = [] ↔ responseOf past = none) (p : Program α) :
    Keeps handler (.ending fun newer _ => (handedOver newer = [] ↔ responseOf newer = none))
      past p := by
  induction p generalizing past with
  | done a => exact hpast
  | crash => exact trivial
  | call call deadline next ih =>
      refine ⟨trivial, fun answer => ⟨trivial, fun result _ => ih result ?_⟩⟩
      cases answer <;> exact hpast
  | sleep span next ih => exact ⟨trivial, trivial, ih hpast⟩
  | now next ih => exact fun t => ih t hpast
  | emit event next ih => exact ⟨trivial, ih hpast⟩
  | serve request next ih => exact ⟨trivial, trivial, fun response _ => ih response ⟨nofun, nofun⟩⟩
  | fresh next ih => exact fun n => ih n hpast
  | hold call next ih => exact ⟨trivial, ih hpast⟩
  | unhold next ih => exact ⟨trivial, ih hpast⟩

namespace Admission

end Admission

/-! ## What guests are told -/

namespace Guest

section

variable {s : State Http.Response} {happenings : List Happening} {run : Chronicle Http.Response}
  {i : Nat} {g : Guest} {given : Http.Response}

end

/-! ## A replay and a refusal -/

end Guest

end Turnstile
