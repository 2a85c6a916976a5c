import Turnstile.Proofs.Limiter.Conduct
import Turnstile.Proofs.Once.Lookup
import Turnstile.Service.App

/-!
# What the service does with a request

Whatever is written for a request is the record of a response of its handler,
under the key of its operation.  Whoever is charged for it is charged by its own
limit, under its own key.

Main results:

- Theorem `respond_makes`: the values and the stamps that are written for a
  request.
-/

namespace Turnstile

open Run
open Once (Finds FindsNothing Failed concludes)
open Store (Answer Call)

/-! ## Keys -/

/-- The key of the operation that a request asks for, if that is executed at most
once. -/
def Admission.keyOf (a : Admission) (request : Http.Request) : Option OperationKey :=
  match carried request.headers with
  | .token token =>
      if a.once.appliesTo request.method ∧ Once.validateToken token = none then
        if a.once.scheme.hashesBody request.method then
          (request.body.bytesWithin? a.maxRequestBody).map fun bytes =>
            a.once.scheme.key token request.method request.path (some bytes)
        else some (a.once.scheme.key token request.method request.path none)
      else none
  | _ => none

/-- A failure that speaks of the request, the limit and the store only. -/
def Failure.IsPlain (cfg : Once.Config) (past : List Note) : Failure → Prop
  | .invalidToken reason =>
      reason = Admission.unreadableToken ∨ ∃ fault : Once.TokenFault, reason = fault.message
  | .storeUnavailable error => Failed cfg error past
  | .internal => False
  | _ => True

namespace Admission

variable {a : Admission} {next : Next} {request : Http.Request}

/-- Executing a request under a token is a failure, or goes on without a guard,
or under the key of the operation. -/
theorem execute_cases (a : Admission) (token : String) (body : Option Bytes) (next : Next)
    (request : Http.Request) :
    (∃ event fault, a.execute (some token) body next request =
      .emit event (.done (refuse (.invalidToken (Once.TokenFault.message fault))))) ∨
    (a.execute (some token) body next request =
      Once.bypass (next request) >>= fun result => pure (conclude result)) ∨
    (a.once.appliesTo request.method = true ∧ Once.validateToken token = none ∧
      a.execute (some token) body next request =
        Once.guarded a.once (a.once.scheme.key token request.method request.path body)
          (next request) >>= fun result => pure (conclude result)) := by
  unfold execute Once.execute
  dsimp only
  by_cases happlies : a.once.appliesTo request.method = true
  · rw [if_pos happlies]
    cases hfault : Once.validateToken token with
    | some fault => exact Or.inl ⟨_, fault, rfl⟩
    | none => exact Or.inr (Or.inr ⟨happlies, rfl, rfl⟩)
  · rw [if_neg happlies]
    exact Or.inr (Or.inl rfl)

/-- A request is refused, or executed without a guard, or under the key of its
operation. -/
theorem coordinate_cases (a : Admission) (next : Next) (request : Http.Request) :
    (∃ f : Failure, f.IsPlain a.once [] ∧ (a.coordinate next request = .done (refuse f) ∨
      ∃ event, a.coordinate next request = .emit event (.done (refuse f)))) ∨
    (∃ body, a.coordinate next request =
      Once.bypass (next { request with body := body }) >>= fun result => pure (conclude result)) ∨
    (∃ key body, a.keyOf request = some key ∧ a.coordinate next request =
      Once.guarded a.once key (next { request with body := body }) >>= fun result =>
        pure (conclude result)) := by
  unfold coordinate keyOf
  cases carried request.headers with
  | unreadable => exact Or.inl ⟨.invalidToken unreadableToken, Or.inl rfl, Or.inl rfl⟩
  | nothing => exact Or.inr (Or.inl ⟨request.body, rfl⟩)
  | token token =>
      dsimp only
      by_cases hhashes : a.once.scheme.hashesBody request.method = true
      · rw [if_pos hhashes, if_pos hhashes]
        cases hbytes : request.body.bytesWithin? a.maxRequestBody with
        | none => exact Or.inl ⟨.payloadTooLarge, trivial, Or.inl rfl⟩
        | some bytes =>
            dsimp only
            rcases a.execute_cases token (some bytes) next
              { request with body := .ofBytes bytes } with ⟨event, fault, heq⟩ | heq | ⟨happlies, hvalid, heq⟩
            · exact Or.inl ⟨.invalidToken fault.message, Or.inr ⟨fault, rfl⟩, Or.inr ⟨event, heq⟩⟩
            · exact Or.inr (Or.inl ⟨_, heq⟩)
            · exact Or.inr (Or.inr ⟨_, _, if_pos ⟨happlies, hvalid⟩, heq⟩)
      · rw [if_neg hhashes, if_neg hhashes]
        rcases a.execute_cases token none next request with ⟨event, fault, heq⟩ | heq | ⟨happlies, hvalid, heq⟩
        · exact Or.inl ⟨.invalidToken fault.message, Or.inr ⟨fault, rfl⟩, Or.inr ⟨event, heq⟩⟩
        · exact Or.inr (Or.inl ⟨request.body, heq⟩)
        · exact Or.inr (Or.inr ⟨_, request.body, if_pos ⟨happlies, hvalid⟩, heq⟩)

end Admission

/-! ## Handlers -/

section

variable {made owed : Call → Prop}

/-- A payment makes no call. -/
theorem Payment.handle_makes (request : Http.Request) : Makes made owed (handle request) := by
  unfold handle
  cases PaymentRequest.ofHttp request with
  | error rejection => exact trivial
  | ok wanted => exact fun _ _ => trivial

namespace Administration

/-- An answer for the text of a segment makes what it does for every text. -/
theorem withText_makes {segment : List Char} {answer : String → Program Http.Response}
    (h : ∀ text, Makes made owed (answer text)) : Makes made owed (withText segment answer) := by
  unfold withText
  cases Http.Percent.decodeText? segment with
  | none => exact trivial
  | some text => exact h text

/-- Showing what a subject has used makes one count. -/
theorem showUsage_makes (l : Limiter) (text : String)
    (hcount : ∀ key now window, made (.countInWindow key now window)) :
    Makes made owed (showUsage l text) := by
  intro now
  refine ⟨hcount _ _ _, ?_⟩
  intro result
  cases result with
  | error error => exact trivial
  | ok answer => exact fun _ => trivial

/-- Forgetting a subject makes one delete. -/
theorem forget_makes (l : Limiter) (text : String) (hdelete : ∀ key, made (.delete key)) :
    Makes made owed (forget l text) := by
  refine ⟨hdelete _, ?_⟩
  intro result
  cases result with
  | error error => exact trivial
  | ok answer => exact trivial

/-- The administration counts and deletes. -/
theorem guarded_makes (token : String) (l : Limiter) (segment : List Char) (request : Http.Request)
    (hcount : ∀ key now window, made (.countInWindow key now window))
    (hdelete : ∀ key, made (.delete key)) : Makes made owed (guarded token l segment request) := by
  unfold guarded handle
  by_cases hpresents : presents token request = true
  · rw [if_pos hpresents]
    by_cases hget : request.method = .get ∨ request.method = .head
    · rw [if_pos hget]
      exact withText_makes fun text => showUsage_makes l text hcount
    · rw [if_neg hget]
      by_cases hdel : request.method = .delete
      · rw [if_pos hdel]
        exact withText_makes fun text => forget_makes l text hdelete
      · rw [if_neg hdel]
        exact trivial
  · rw [if_neg hpresents]
    exact trivial

end Administration

end

/-! ## Calls -/

namespace Service

/-- The value is the record of a response that the service may give to the
request, and the request asks for the operation of the key. -/
def Records (s : Service) (request : Http.Request) (key : OperationKey) (value : Bytes) : Prop :=
  s.admission.keyOf request = some key ∧
    ∃ body, Once.RecordsOne s.admission.once (s.handle { request with body := body }) value

/-- The calls that are made for a request. -/
def mayCall (s : Service) (request : Http.Request) : Call → Prop
  | .set k value _ => ∃ key, k = key.text ∧ s.Records request key value
  | .recordInWindow k _ _ limit _ => ∃ subject,
      k = s.admission.limiter.keyFor subject ∧ limit = s.admission.limiter.limitFor subject
  | _ => True

/-- The calls that are owed: releases. -/
def mayOwe : Call → Prop
  | .releaseLock _ _ => True
  | _ => False

/-- A handler writes nothing. -/
theorem handle_makes (s : Service) (request request' : Http.Request) :
    Makes (s.mayCall request) mayOwe (s.handle request') := by
  unfold handle
  split
  · by_cases hpost : request'.method = .post
    · rw [if_pos hpost]
      exact Payment.handle_makes request'
    · rw [if_neg hpost]
      exact trivial
  · exact Administration.guarded_makes _ _ _ request' (fun _ _ _ => trivial) fun _ => trivial
  · exact trivial

/-- Executing a request writes the record of a response of its handler. -/
theorem coordinate_makes (s : Service) (request : Http.Request) :
    Makes (s.mayCall request) mayOwe (s.admission.coordinate s.handle request) := by
  rcases s.admission.coordinate_cases s.handle request with
    ⟨f, _, heq | ⟨event, heq⟩⟩ | ⟨body, heq⟩ | ⟨key, body, hkey, heq⟩
  · rw [heq]
    exact trivial
  · rw [heq]
    exact trivial
  · have hbypass : Makes (s.mayCall request) mayOwe
        (Once.bypass (s.handle { request with body := body })) :=
      (s.handle_makes request _).bind fun _ _ => trivial
    rw [heq]
    exact hbypass.bind fun _ _ => trivial
  · rw [heq]
    refine (Once.guarded_makes ?_).bind fun _ _ => trivial
    refine ⟨s.handle_makes request _, trivial, ?_, trivial, fun _ => trivial, fun _ => trivial⟩
    intro value hvalue
    exact ⟨key, rfl, hkey, body, hvalue⟩

/-- Whatever is written for a request is the record of a response of its
handler, or a stamp in the window of somebody by the limit of that. -/
theorem respond_makes (s : Service) (request : Http.Request) :
    Makes (s.mayCall request) mayOwe (s.respond request) := by
  have hanswer : Makes (s.mayCall request) mayOwe (s.answer request) := by
    unfold answer
    by_cases hhealth : s.route request = .health
    · rw [if_pos hhealth]
      exact trivial
    · rw [if_neg hhealth]
      intro now
      refine (s.admission.limiter.allow_makes _ fun _ _ _ => ⟨_, rfl, rfl⟩).bind fun result _ => ?_
      cases result with
      | error error => exact trivial
      | ok decision =>
          unfold Admission.afterLimiter
          by_cases hallowed : decision.allowed = true
          · simp only [hallowed, if_true]
            exact (s.coordinate_makes request).bind fun _ _ => trivial
          · simp only [hallowed]
            exact trivial
  exact hanswer.bind fun _ _ => trivial

end Service

end Turnstile
