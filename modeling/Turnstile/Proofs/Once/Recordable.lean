import Turnstile.Proofs.Http.Buffering
import Turnstile.Proofs.Once.AtMostOnce
import Turnstile.Proofs.Run.Account

/-!
# Which responses are recorded

A body that declares its length is skipped at once if that is too long; any other body
is collected frame by frame until it ends, breaks off or gets too long.  Where what is
declared is true, both come to the same: a response is recorded just when it is a
success whose body ends and is not too long, as all the bytes of that body.

A caller that ends with the response of a run under its lock treated that response in
one of two ways: it handed it on and reported that it is not recorded, or it had it
recorded.  So its notes tell from the response alone what it reported and what it wrote.

Main results:

- Theorem `captured?_eq_some_iff`: which responses are recorded, and as which bytes.
- Theorem `guarded_executes`: what a caller noted that ends with the response of a run.
- Theorem `recorded_iff_recordable`: after a run the store holds a new record just when
  the response is to be recorded; how its body is framed and declared does not matter.
-/

namespace Turnstile.Once

open Run
open Store (Answer Call LocalStore Ran Token valueUnder)

/-! ## What is to be recorded -/

/-- What the body declares is its length, if it ends. -/
def DeclaresTruly (body : Http.Body) : Prop :=
  body.failure = none → ∀ n, body.declared = some n → n = body.bytes.length

/-- The response is a success whose body ends and is not too long. -/
structure Recordable (cfg : Config) (response : Http.Response) : Prop where
  success : 200 ≤ response.status ∧ response.status < 300
  ends : response.body.failure = none
  fits : response.body.bytes.length ≤ cfg.maxBodyBytes

instance (cfg : Config) (response : Http.Response) : Decidable (Recordable cfg response) :=
  decidable_of_iff ((200 ≤ response.status ∧ response.status < 300) ∧
      response.body.failure = none ∧ response.body.bytes.length ≤ cfg.maxBodyBytes)
    ⟨fun h => ⟨h.1, h.2.1, h.2.2⟩, fun h => ⟨h.success, h.ends, h.fits⟩⟩

section

variable {cfg : Config} {key : OperationKey} {response response' given : Http.Response}
  {bytes : Bytes}

/-- A response is recorded just when it is to be, and then as all of its bytes. -/
theorem captured?_eq_some_iff (htrue : DeclaresTruly response.body) :
    captured? cfg response = some bytes ↔
      Recordable cfg response ∧ bytes = response.body.bytes := by
  have hbytes := Http.Body.bytesWithin?_eq_some_iff response.body cfg.maxBodyBytes bytes
  have hstatus : Http.isSuccess response.status = true ↔
      200 ≤ response.status ∧ response.status < 300 := by
    simp [Http.isSuccess]
  unfold captured?
  by_cases hskip : (!Http.isSuccess response.status || isKnownTooLong cfg response.body) = true
  · rw [if_pos hskip]
    refine ⟨(absurd · (Option.some_ne_none _).symm), ?_⟩
    rintro ⟨hrecordable, _⟩
    rw [hstatus.2 hrecordable.success] at hskip
    -- A body that ends is as long as it declares, so one that fits is not skipped.
    unfold isKnownTooLong at hskip
    cases hdeclared : response.body.declared with
    | none => simp [hdeclared] at hskip
    | some n =>
        have hlength := htrue hrecordable.ends n hdeclared
        have hfits := hrecordable.fits
        simp [hdeclared] at hskip
        omega
  · rw [if_neg hskip, hbytes]
    simp only [Bool.or_eq_true, not_or, Bool.not_eq_true, Bool.not_eq_false'] at hskip
    constructor
    · rintro ⟨hends, rfl, hfits⟩
      exact ⟨⟨hstatus.1 hskip.1, hends, hfits⟩, rfl⟩
    · rintro ⟨hrecordable, rfl⟩
      exact ⟨hrecordable.ends, rfl, hrecordable.fits⟩

/-- Nothing is captured of a response that is not recordable, and of no other. -/
theorem captured?_eq_none_iff (htrue : DeclaresTruly response.body) :
    captured? cfg response = none ↔ ¬ Recordable cfg response := by
  rw [Option.eq_none_iff_forall_ne_some]
  constructor
  · intro h hrecordable
    exact h _ ((captured?_eq_some_iff htrue).2 ⟨hrecordable, rfl⟩)
  · intro h bytes hbytes
    exact h ((captured?_eq_some_iff htrue).1 hbytes).1

/-- Whether a response is recorded depends on its status and on what its body delivers. -/
theorem recordable_congr (hreceived : response.received = response'.received) :
    Recordable cfg response ↔ Recordable cfg response' := by
  simp only [Http.Response.received, Http.Body.delivered, Prod.mk.injEq] at hreceived
  rcases hreceived with ⟨hstatus, _, hbytes, hfailure⟩
  have himp {a b : Http.Response} (hstatus : a.status = b.status)
      (hbytes : a.body.bytes = b.body.bytes) (hfailure : a.body.failure = b.body.failure)
      (h : Recordable cfg a) : Recordable cfg b :=
    ⟨hstatus ▸ h.success, hfailure ▸ h.ends, hbytes ▸ h.fits⟩
  exact ⟨himp hstatus hbytes hfailure, himp hstatus.symm hbytes.symm hfailure.symm⟩

/-- Responses of which a client gets the same are recorded alike, however their bodies
are framed and whatever they declare. -/
theorem captured?_congr (htrue : DeclaresTruly response.body)
    (htrue' : DeclaresTruly response'.body) (hreceived : response.received = response'.received) :
    captured? cfg response = captured? cfg response' := by
  have hbytes : response.body.bytes = response'.body.bytes := by
    simp only [Http.Response.received, Http.Body.delivered, Prod.mk.injEq] at hreceived
    exact hreceived.2.2.1
  ext bytes
  rw [captured?_eq_some_iff htrue, captured?_eq_some_iff htrue', recordable_congr hreceived, hbytes]

/-- So the same is written and reported of them, and they are handed on as the same. -/
theorem capture_congr (cfg : Config) (key : OperationKey) (htrue : DeclaresTruly response.body)
    (htrue' : DeclaresTruly response'.body) (hreceived : response.received = response'.received) :
    (capture cfg key response >>= fun given => pure given.received) =
      (capture cfg key response' >>= fun given => pure given.received) := by
  have hsame : captured? cfg response = captured? cfg response' :=
    captured?_congr htrue htrue' hreceived
  have hstatus : response.status = response'.status := congrArg Prod.fst hreceived
  have hheaders : response.headers = response'.headers := congrArg (·.2.1) hreceived
  rcases capture_eq cfg key response with
    ⟨hnone, body, hbody, hcapture⟩ | ⟨bytes, hsome, hcapture⟩ <;>
  rcases capture_eq cfg key response' with
    ⟨hnone', body', hbody', hcapture'⟩ | ⟨bytes', hsome', hcapture'⟩
  · show (Program.bind _ _) = (Program.bind _ _)
    rw [hcapture, hcapture']
    have hgiven : { response with body := body }.received =
        { response' with body := body' }.received := by
      rw [Http.Response.received_withBody hbody, Http.Response.received_withBody hbody', hreceived]
    show Program.emit (.responseNotCached key.text response.status) (.done _) =
      .emit (.responseNotCached key.text response'.status) (.done _)
    rw [hgiven, hstatus]
  · rw [hsame, hsome'] at hnone
    exact nomatch hnone
  · rw [hsame, hnone'] at hsome
    exact nomatch hsome
  · rw [hsame, hsome', Option.some.injEq] at hsome
    subst hsome
    rw [hcapture, hcapture', hstatus, hheaders]

end

/-! ## What a caller notes of it -/

/-- The notes of a response that was treated, and what was handed on of it. -/
inductive Treats (cfg : Config) (key : OperationKey) (response : Http.Response) :
    List Note → Http.Response → Prop where
  /-- The response is not recorded, and this is reported. -/
  | passed {body : Http.Body} (hnone : captured? cfg response = none)
      (hbody : body.delivered = response.body.delivered) :
      Treats cfg key response [.emitted (.responseNotCached key.text response.status)]
        { response with body := body }
  /-- The response was to be stored, and it is reported how that ended. -/
  | stored {bytes : Bytes} {value : Bytes} (now : Timestamp) (answer : Option Answer)
      (result : Except Store.Error Answer) (hsome : captured? cfg response = some bytes)
      (hvalue : value =
        (Record.capture response.status response.headers bytes now cfg.cacheTtl).render)
      (hreports : Reports answer result) :
      Treats cfg key response
        [.emitted (recordingEvent key response.status (result.map fun _ => ())),
          .told (.set key.text value cfg.cacheTtl) result,
          outcome (.set key.text value cfg.cacheTtl) answer,
          .sent (.set key.text value cfg.cacheTtl), .read now]
        { response with body := .ofBytes bytes }

/-- The notes of letting go of a lock, before those of the past. -/
def letGo (key : OperationKey) (token : Token) (answer : Option Answer)
    (result : Except Store.Error Answer) (past : List Note) : List Note :=
  .told (.releaseLock key.lock token) result :: outcome (.releaseLock key.lock token) answer ::
    .sent (.releaseLock key.lock token) :: .unheld :: past

/-- The notes of a caller that ended with the response of a run: it was cleared, ran its
handler, treated the response, and let go of its lock. -/
def Executes (cfg : Config) (key : OperationKey) (http : Http.Request) (notes : List Note)
    (response given : Http.Response) : Prop :=
  ∃ token older treated answer result, Cleared cfg key token older ∧
    Treats cfg key response treated given ∧
    notes = letGo key token answer result
      (treated ++ .finished (some response) :: .began http :: older)

/-- To end with the response of a run only after such notes, and otherwise in any way. -/
def executions (cfg : Config) (key : OperationKey) (http : Http.Request) (past : List Note) :
    Result → Prop
  | .ok (.executed given) => ∃ response, Executes cfg key http past response given
  | _ => True

section

variable {cfg : Config} {key : OperationKey} {http : Http.Request} {handler : Handler}
  {past : List Note}

/-- A client gets of what is handed on what it would have got of the response. -/
theorem Treats.received_eq {notes : List Note} {response given : Http.Response}
    (h : Treats cfg key response notes given) : given.received = response.received := by
  cases h with
  | passed _ hbody => exact Http.Response.received_withBody hbody
  | stored _ _ _ hsome _ _ =>
      refine Http.Response.received_withBody ?_
      rw [Http.Body.delivered_ofBytes, (captured?_eq_some hsome).2]

/-- Capturing a response treats it. -/
theorem capture_treats {α : Type} {ends : List Note → α → Prop} {response : Http.Response}
    {f : Http.Response → Program α}
    (hnext : ∀ notes given, Treats cfg key response notes given →
      Keeps handler (.ending ends) (notes ++ past) (f given)) :
    Keeps handler (.ending ends) past (capture cfg key response >>= f) := by
  rcases capture_eq cfg key response with ⟨hnone, body, hbody, hcapture⟩ | ⟨bytes, hsome, hcapture⟩
  · rw [hcapture]
    exact ⟨trivial, hnext [_] { response with body := body } (.passed hnone hbody)⟩
  · rw [hcapture]
    intro now
    refine ⟨trivial, fun answer => ⟨trivial, fun result hreports => ⟨trivial, ?_⟩⟩⟩
    exact hnext [_, _, _, _, _] { response with body := .ofBytes bytes }
      (.stored now answer result hsome rfl hreports)

/-- A look-up that is answered is noted as such. -/
theorem lookup_noted {ends : List Note → Result → Prop}
    {f : Except Store.Error (Option Record) → Program Result}
    (hfound : ∀ now answer,
      Keeps handler (.ending ends) (lookedUp key now answer past) (f (cfg.found now answer)))
    (hfailed : ∀ newer error, Keeps handler (.ending ends) newer (f (.error error))) :
    Keeps handler (.ending ends) past (lookup cfg key >>= f) := by
  rw [lookup_bind]
  intro now
  refine ⟨trivial, fun answer => ⟨trivial, fun result hreports => ?_⟩⟩
  cases result with
  | error error => exact hfailed _ error
  | ok a =>
      have hanswer : answer = some a := hreports
      subst hanswer
      exact hfound now a

/-- After a failure of the store no caller ends with the response of a guarded run. -/
theorem onStoreFailure_executes (error : Store.Error) (newer : List Note) :
    Keeps handler (.ending (executions cfg key http)) newer
      (onStoreFailure cfg error (served http)) := by
  rw [onStoreFailure_eq]
  refine ⟨trivial, ?_⟩
  by_cases hopen : cfg.failurePolicy = .failOpen
  · rw [if_pos hopen]
    exact ⟨trivial, trivial, fun _ _ => trivial⟩
  · rw [if_neg hopen]
    exact trivial

/-- Nor does a caller that lost the lock. -/
theorem awaitHolder_executes :
    Keeps handler (.ending (executions cfg key http)) past (awaitHolder cfg key) := by
  rw [awaitHolder_eq]
  refine ⟨trivial, trivial, trivial, ?_⟩
  apply lookup_noted
  · intro now answer
    cases cfg.found now answer with
    | error error => exact ⟨trivial, trivial⟩
    | ok found => cases found <;> exact ⟨trivial, trivial⟩
  · intro newer error
    exact ⟨trivial, trivial⟩

/-- A run of the handler under the lock tells what became of its response. -/
theorem runHandler_executes {token : Token} (hcleared : Cleared cfg key token past) :
    Keeps handler (.ending (executions cfg key http)) past
      (runHandler cfg key (served http) token) := by
  rw [runHandler_eq]
  refine ⟨trivial, trivial, fun response _ => ?_⟩
  apply capture_treats
  intro treated given htreats
  rw [release_bind]
  refine ⟨trivial, trivial, fun answer => ⟨trivial, fun result _ => ?_⟩⟩
  exact ⟨response, token, past, treated, answer, result, hcleared, htreats, rfl⟩

/-- A caller that found no record and took the lock goes on to a run, unless it finds a
record then or the store fails. -/
theorem underLock_executes {token : Token} {now : Timestamp} {answer : Answer}
    (hfirst : recordOf now answer = .ok none) :
    Keeps handler (.ending (executions cfg key http))
      (tookLock cfg key token (lookedUp key now answer [.resumed]))
      (lookup cfg key >>= afterRecheck cfg key (served http) token) := by
  apply lookup_noted
  · intro now' answer'
    cases hsecond : cfg.found now' answer' with
    | error error =>
        exact ⟨trivial, trivial, fun _ => ⟨trivial, fun _ _ => onStoreFailure_executes error _⟩⟩
    | ok found =>
        cases found with
        | none =>
            exact runHandler_executes
              ⟨now, answer, now', answer', hfirst, Config.found_eq_ok.1 hsecond, rfl⟩
        | some record => exact ⟨trivial, trivial, fun _ => ⟨trivial, fun _ _ => ⟨trivial, trivial⟩⟩⟩
  · intro newer error
    exact ⟨trivial, trivial, fun _ => ⟨trivial, fun _ _ => onStoreFailure_executes error _⟩⟩

/-- Who ends with the response of a run noted all of it. -/
theorem guarded_executes :
    KeepsFromStart handler (.ending (executions cfg key http)) (guarded cfg key (served http)) := by
  refine ⟨trivial, ?_⟩
  apply lookup_noted
  · intro now answer
    cases hfirst : cfg.found now answer with
    | error error => exact onStoreFailure_executes error _
    | ok found =>
        cases found with
        | some record => exact ⟨trivial, trivial⟩
        | none =>
            show Keeps _ _ _ (acquire cfg key >>= afterAcquire cfg key (served http))
            rw [acquire_bind]
            refine ⟨trivial, fun given => ⟨trivial, fun result hreports => ?_⟩⟩
            cases result with
            | error error => exact onStoreFailure_executes error _
            | ok a =>
                have hgiven : given = some a := hreports
                subst hgiven
                simp only [Except.map]
                cases htoken : tokenOf a with
                | none => exact awaitHolder_executes
                | some token =>
                    rw [eq_token_of_tokenOf htoken]
                    exact ⟨trivial, underLock_executes (Config.found_eq_ok.1 hfirst)⟩
  · intro newer error
    exact onStoreFailure_executes error _

end

/-! ## What the store finds -/

/-- Between two moments of a run nobody wrote under a key, except the `i`-th task. -/
def Undisturbed (i : Nat) (key : String) (earlier later : Log) : Prop :=
  ∀ t who call answer past, Tells later ⟨t, who, .done call answer⟩ past → earlier <:+ past →
    call.Writes key → who = some i

/-- The `i`-th task had a value stored under a key.  From then on the store finds it there
until it expires, as long as nobody else writes under the key. -/
def StoredBy (log : Log) (i : Nat) (key : String) (value : Bytes) (ttl : Span) : Prop :=
  ∃ t answer past, Tells log ⟨t, some i, .done (.set key value ttl) answer⟩ past ∧
    ∀ later, later <:+ log → ⟨t, some i, .done (.set key value ttl) answer⟩ :: past <:+ later →
      Undisturbed i key (⟨t, some i, .done (.set key value ttl) answer⟩ :: past) later →
      ∀ store now, Ran (deeds later) store now → ∀ moment, now ≤ moment →
        store.get moment key = if moment < t + ttl.nanos then some value else none

/-- The `i`-th task leaves a key alone: where nobody else wrote under it between two
moments, the store finds there what it found. -/
def LeftBy (log : Log) (i : Nat) (key : String) : Prop :=
  ∀ earlier later, earlier <:+ later → later <:+ log → Undisturbed i key earlier later →
    ∀ store now store' now', Ran (deeds earlier) store now → Ran (deeds later) store' now' →
      ∀ moment, now ≤ moment → now' ≤ moment → store'.get moment key = store.get moment key

section

variable {log : Log} {i : Nat} {key : String}

/-- What stands on top of more than an end of a list stands before that end. -/
theorem mem_of_suffix_append {β : Type} {a : β} {older newer rest : List β}
    (h : a :: older <:+ newer ++ rest) (hlong : rest.length ≤ older.length) : a ∈ newer := by
  induction newer with
  | nil =>
      have hlength := List.IsSuffix.length_le h
      simp only [List.nil_append, List.length_cons] at hlength
      omega
  | cons b newer ih =>
      rcases List.suffix_cons_iff.1 h with heq | hbehind
      · rw [(List.cons.inj heq).1]
        exact List.mem_cons_self
      · exact List.mem_cons_of_mem _ (ih hbehind)

/-- What was done behind a deed was told behind it. -/
theorem suffix_of_deeds_suffix {earlier past : Log} {t : Nat} {who : Option Nat} {call : Call}
    {answer : Answer} (htold : Tells log ⟨t, who, .done call answer⟩ past) (hs : earlier <:+ log)
    (hdeeds : deeds earlier <:+ deeds past) : earlier <:+ past := by
  have hshort := List.IsSuffix.length_le hdeeds
  rcases List.suffix_or_suffix_of_suffix hs htold with hbehind | hbefore
  · rcases List.suffix_cons_iff.1 hbehind with rfl | hbehind
    · rw [deeds_cons_done, List.length_cons] at hshort
      omega
    · exact hbehind
  · have hlong := List.IsSuffix.length_le (deeds_suffix hbefore)
    rw [deeds_cons_done, List.length_cons] at hlong
    omega

/-- A task that wrote once under a key had a value stored there. -/
theorem storedBy_of_own {value : Bytes} {ttl : Span} {answer : Answer} {newer older : List Note}
    (hown : own i log = newer ++ .done (.set key value ttl) answer :: older)
    (honce : ∀ call a, .done call a ∈ newer → ¬ call.Writes key) :
    StoredBy log i key value ttl := by
  rcases exists_of_own newer hown with ⟨t, past, hset, hpast⟩
  refine ⟨t, answer, past, hset, ?_⟩
  intro later hlater hsince hundisturbed store now hran moment hle
  have hsetThen : Tells later ⟨t, some i, .done (.set key value ttl) answer⟩ past := hsince
  have hentry : valueUnder key (deeds later) = some ⟨value, t + ttl.nanos⟩ := by
    apply Store.valueUnder_of_set hsetThen.deed
    intro d' behind hd hafter hwrites
    rcases exists_of_deed hd with ⟨who, between, htold, rfl⟩
    have hbetween := tells_of_deeds hsetThen htold hafter
    have hwho := hundisturbed _ _ _ _ _ htold hbetween hwrites
    subst hwho
    -- The task would have written twice.
    have hdone : .done d'.call d'.answer :: own i between <:+
        newer ++ .done (.set key value ttl) answer :: older := by
      rw [← hown]
      exact htold.own.trans (own_suffix i hlater)
    refine honce _ _ (mem_of_suffix_append hdone ?_) hwrites
    have hlength := List.IsSuffix.length_le hbetween.own
    rwa [hpast] at hlength
  rw [hran.get_eq hle, hentry]
  rfl

/-- A task that never wrote under a key leaves it alone. -/
theorem leftBy_of_own (hnever : ∀ call a, .done call a ∈ own i log → ¬ call.Writes key) :
    LeftBy log i key := by
  intro earlier later hs hlater hundisturbed store now store' now' hran hran' moment hle hle'
  have hsame : valueUnder key (deeds later) = valueUnder key (deeds earlier) := by
    apply Store.valueUnder_of_suffix (deeds_suffix hs)
    intro d' behind hd hafter hwrites
    rcases exists_of_deed hd with ⟨who, past, htold, rfl⟩
    have hpast := suffix_of_deeds_suffix htold hs hafter
    have hwho := hundisturbed _ _ _ _ _ htold hpast hwrites
    subst hwho
    have hdone := htold.own.trans (own_suffix i hlater)
    exact hnever _ _ (List.IsSuffix.mem List.mem_cons_self hdone) hwrites
  rw [hran.get_eq hle, hran'.get_eq hle', hsame]

end

/-! ## Every caller -/

section

variable {cfg : Config} {key : OperationKey} {http : Http.Request} {notes : List Note}
  {response given : Http.Response}

/-- A caller that is cleared reported nothing so far. -/
theorem Cleared.reported_eq_nil {token : Token} (h : Cleared cfg key token notes) :
    reported notes = [] := by
  rcases h with ⟨_, _, _, _, _, _, rfl⟩
  rfl

/-- A caller that is cleared wrote nothing so far. -/
theorem Cleared.not_writes {token : Token} (h : Cleared cfg key token notes) {call : Call}
    {answer : Answer} (hdone : .done call answer ∈ notes) (k : String) : ¬ call.Writes k := by
  rcases h with ⟨_, _, _, _, _, _, rfl⟩
  simp only [lookedUp, tookLock, List.mem_cons, Note.done.injEq, reduceCtorEq, false_or, or_false,
    List.not_mem_nil] at hdone
  rcases hdone with ⟨rfl, _⟩ | ⟨rfl, _⟩ | ⟨rfl, _⟩ <;> exact id

/-- Letting go of a lock reports nothing. -/
theorem reported_letGo (token : Token) (answer : Option Answer) (result : Except Store.Error Answer)
    (past : List Note) : reported (letGo key token answer result past) = reported past := by
  cases answer <;> rfl

/-- A release writes nothing. -/
theorem not_writes_of_letGo {token : Token} {answer : Option Answer}
    {result : Except Store.Error Answer} {past : List Note} {call : Call} {a : Answer}
    (hdone : .done call a ∈ letGo key token answer result past) :
    (∀ k, ¬ call.Writes k) ∨ .done call a ∈ past := by
  cases answer with
  | none => exact Or.inr (by simpa [letGo, outcome] using hdone)
  | some b =>
      simp only [letGo, outcome, List.mem_cons, Note.done.injEq, reduceCtorEq, false_or] at hdone
      rcases hdone with ⟨rfl, _⟩ | hdone
      · exact Or.inl fun _ => id
      · exact Or.inr hdone

/-- The record of a response, captured when the clock showed `now`. -/
def recordAt (cfg : Config) (response : Http.Response) (now : Timestamp) : Record :=
  .capture response.status response.headers response.body.bytes now cfg.cacheTtl

/-- The handler responded with it. -/
theorem Executes.finished (h : Executes cfg key http notes response given) :
    .finished (some response) ∈ notes := by
  rcases h with ⟨_, _, _, _, _, _, _, rfl⟩
  simp [letGo]

/-- A caller that ended with the response of a run, and whose write did not fail, wrote the
record if the response is to be recorded, and else wrote nothing; it reported as much. -/
theorem Executes.wrote (h : Executes cfg key http notes response given)
    (htrue : DeclaresTruly response.body)
    (hwritten : ∀ k value ttl error, .told (.set k value ttl) (.error error) ∉ notes) :
    (Recordable cfg response ∧ reported notes = [.responseCached key.text response.status] ∧
      ∃ now newer older answer, .read now ∈ older ∧
        notes = newer ++
          .done (.set key.text (recordAt cfg response now).render cfg.cacheTtl) answer :: older ∧
        ∀ call a, .done call a ∈ newer → ¬ call.Writes key.text) ∨
    (¬ Recordable cfg response ∧
      reported notes = [.responseNotCached key.text response.status] ∧
      ∀ call a, .done call a ∈ notes → ∀ k, ¬ call.Writes k) := by
  rcases h with ⟨token, older, treated, released, told, hcleared, htreats, rfl⟩
  have hreported : reported (.finished (some response) :: .began http :: older) = [] :=
    hcleared.reported_eq_nil
  cases htreats with
  | passed hnone _ =>
      refine Or.inr ⟨(captured?_eq_none_iff htrue).1 hnone, ?_, ?_⟩
      · rw [reported_letGo]
        exact congrArg (.responseNotCached key.text response.status :: ·) hreported
      · intro call a hdone
        rcases not_writes_of_letGo hdone with hnot | hdone
        · exact hnot
        · have hpast : .done call a ∈ older := by simpa using hdone
          exact hcleared.not_writes hpast
  | @stored bytes value now answer result hsome hvalue hreports =>
      rcases (captured?_eq_some_iff htrue).1 hsome with ⟨hrecordable, rfl⟩
      -- The write did not fail, so it was carried out.
      cases result with
      | error error => exact absurd (by simp [letGo]) (hwritten key.text value cfg.cacheTtl error)
      | ok a =>
          have hanswer : answer = some a := hreports
          subst hanswer hvalue
          refine Or.inl ⟨hrecordable, ?_, now, letGo key token released told
              [.emitted (.responseCached key.text response.status), .told _ (.ok a)],
            .sent _ :: .read now :: .finished (some response) :: .began http :: older, a, by simp,
            rfl, ?_⟩
          · rw [reported_letGo]
            exact congrArg (.responseCached key.text response.status :: ·) hreported
          · intro call b hdone
            rcases not_writes_of_letGo hdone with hnot | hdone
            · exact hnot _
            · simp at hdone

end

namespace Caller

/-- A caller that ended with the response of a run is guarded, and noted all of it. -/
theorem executes_of_path {c : Caller} {notes : List Note} {given : Http.Response}
    {owed : Option Call}
    (h : Path c.handler ⟨.resting c.program, none⟩ notes ⟨.ended (.ok (.executed given)), owed⟩) :
    ∃ key response older, c.key? = some key ∧ notes = .ended :: older ∧
      Executes c.config key c.http older response given ∧ c.handler.Gives (some response) := by
  cases hkey : c.key? with
  | none =>
      rcases conduct_of_path (free_keeps hkey) h with ⟨_, _, _, hends⟩
      exact hends.elim
  | some key =>
      have hprogram := program_of_key hkey
      rw [hprogram] at h
      rcases conduct_of_path guarded_executes h with ⟨hlawful, older, rfl, response, hexecutes⟩
      refine ⟨key, response, older, rfl, rfl, hexecutes, ?_⟩
      rcases hexecutes with ⟨token, past, treated, answer, result, _, _, rfl⟩
      have hanswers := (hlawful (.finished (some response)) (.began c.http :: past)
        ⟨.ended :: letGo key token answer result treated, by simp [letGo]⟩).1
      exact hanswers.2 response rfl

/-- So it is for the caller that is the `i`-th task of a run. -/
theorem executes_of_run {c : Caller} {s : State Result} {happenings : List Happening} {i : Nat}
    {t : Run.Task Result} {given : Http.Response} {time : Nat} (hfits : ∀ t ∈ s.tasks, t.Fits)
    (htask : s.tasks[i]? = some c.task) (ht : (Chronicle.of s happenings).state.tasks[i]? = some t)
    (hwait : t.wait = .nothing (.result (.ok (.executed given))) time) :
    ∃ key response older, c.key? = some key ∧
      own i (Chronicle.of s happenings).log = .ended :: older ∧
      Executes c.config key c.http older response given ∧ c.handler.Gives (some response) := by
  rcases (chronicle_path hfits happenings).path i c.task t htask ht with ⟨_, _, hpath⟩
  rw [Task.stage_of_result hwait] at hpath
  exact executes_of_path hpath

/-- What became of the response of a run, as the `i`-th task of a run with this log. -/
structure Disposes (c : Caller) (key : OperationKey) (response : Http.Response) (log : Log)
    (i : Nat) : Prop where
  /-- The caller wrote just when the response is to be recorded. -/
  wrote : (∃ k value ttl answer, .done (.set k value ttl) answer ∈ own i log) ↔
    Recordable c.config response
  /-- If it is, the store holds a new record from then on, with all the bytes of the body. -/
  stored : Recordable c.config response → ∃ now, .read now ∈ own i log ∧
    StoredBy log i key.text (recordAt c.config response now).render c.config.cacheTtl
  /-- If it is not, the store holds what it held. -/
  left : ¬ Recordable c.config response → LeftBy log i key.text
  /-- The caller reported which of the two it is, and nothing else. -/
  reported : reported (own i log) = [if Recordable c.config response then
    .responseCached key.text response.status else .responseNotCached key.text response.status]

/-- What was executed is disposed of as the response and the log say. -/
theorem disposes_of_executes {c : Caller} {key : OperationKey} {response given : Http.Response}
    {log : Log} {i : Nat} {older : List Note} (hown : own i log = .ended :: older)
    (h : Executes c.config key c.http older response given) (htrue : DeclaresTruly response.body)
    (hwritten : ∀ k value ttl error, .told (.set k value ttl) (.error error) ∉ own i log) :
    c.Disposes key response log i := by
  have hended : Run.reported (own i log) = Run.reported older := by
    rw [hown]
    rfl
  rw [hown] at hwritten
  rcases h.wrote htrue fun k value ttl error hmem => hwritten k value ttl error
      (List.mem_cons_of_mem _ hmem) with
    ⟨hrecordable, hreported, now, newer, past, answer, hread, rfl, honce⟩ |
    ⟨hnot, hreported, hnever⟩
  · have hsince : ∀ call a, .done call a ∈ .ended :: newer → ¬ call.Writes key.text :=
      fun call a hdone => honce call a (by simpa using hdone)
    refine ⟨⟨fun _ => hrecordable, fun _ => ?_⟩, fun _ => ⟨now, ?_, storedBy_of_own hown hsince⟩,
      fun h => absurd hrecordable h, ?_⟩
    · rw [hown]
      exact ⟨_, _, _, answer, List.mem_cons_of_mem _ (List.mem_append_right _ List.mem_cons_self)⟩
    · rw [hown]
      exact List.mem_cons_of_mem _ (List.mem_append_right _ (List.mem_cons_of_mem _ hread))
    · rw [hended, hreported, if_pos hrecordable]
  · have hnone : ∀ call a, .done call a ∈ own i log → ∀ k, ¬ call.Writes k := by
      intro call a hdone
      rw [hown] at hdone
      exact hnever call a (by simpa using hdone)
    refine ⟨⟨?_, fun h => absurd h hnot⟩, fun h => absurd h hnot,
      fun _ => leftBy_of_own fun call a hdone => hnone call a hdone _, ?_⟩
    · rintro ⟨k, value, ttl, answer, hdone⟩
      exact absurd rfl (hnone _ _ hdone k)
    · rw [hended, hreported, if_neg hnot]

end Caller

/-- What is recorded depends only on the status and on all that the body delivers.  Whoever
shares the store, and whatever fails or comes late: where a caller ends with the response
of a run under its lock, and its write, if there was one, did not fail, it wrote just when
the response is a success whose body ends and is not too long; the store then holds the
record with the bytes of all frames, and else what it held; and the one event tells which.
Responses of which a client gets the same are treated the same, whether a body declares
its length or has to be collected. -/
theorem recorded_iff_recordable :
    (∀ (c : Caller) (s : State Result) (happenings : List Happening) (run : Chronicle Result)
      (i : Nat) (t : Run.Task Result) (given : Http.Response) (time : Nat),
      run = Chronicle.of s happenings → (∀ t ∈ s.tasks, t.Fits) → s.world.store = .empty →
      s.tasks[i]? = some c.task → run.state.tasks[i]? = some t →
      t.wait = .nothing (.result (.ok (.executed given))) time →
      (∀ response, c.handler.Gives (some response) → DeclaresTruly response.body) →
      (∀ k value ttl error, .told (.set k value ttl) (.error error) ∉ own i run.log) →
      Ran (deeds run.log) run.state.world.store run.state.world.mono ∧
      ∃ key response, c.key? = some key ∧ .finished (some response) ∈ own i run.log ∧
        c.Disposes key response run.log i) ∧
    ∀ (cfg : Config) (key : OperationKey) (response response' : Http.Response),
      DeclaresTruly response.body → DeclaresTruly response'.body →
      response.received = response'.received →
      (capture cfg key response >>= fun given => pure given.received) =
        (capture cfg key response' >>= fun given => pure given.received) := by
  refine ⟨?_, fun cfg key response response' => capture_congr cfg key⟩
  intro c s happenings run i t given time hrun hfits hstore htask ht hwait htrue hwritten
  subst hrun
  refine ⟨(chronicle_kept s happenings).ran hstore, ?_⟩
  rcases Caller.executes_of_run hfits htask ht hwait with
    ⟨key, response, older, hkey, hown, hexecutes, hgives⟩
  refine ⟨key, response, hkey, ?_,
    Caller.disposes_of_executes hown hexecutes (htrue response hgives) hwritten⟩
  rw [hown]
  exact List.mem_cons_of_mem _ hexecutes.finished

/-! ## A body that just fits -/

/-- A payment whose confirmation is streamed in three frames, one of them empty. -/
def streamed : Http.Response :=
  ⟨201, .empty, .stream [[1], [], [2, 3]] none⟩

/-- The same confirmation, of which it is known that it has three bytes. -/
def whole : Http.Response :=
  ⟨201, .empty, .ofBytes [1, 2, 3]⟩

/-- A payer of whose confirmations three bytes are recorded. -/
def streamingPayer : Caller :=
  { payer with
    config := { Config.standard with maxBodyBytes := 3 }
    handler := ⟨none, fun _ _ => some streamed⟩ }

/-- The payer has a key. -/
theorem streamingPayer_key : streamingPayer.key? = some orderKey := payer_key

/-- The payer pays alone. -/
def streamedPayment : Chronicle Result :=
  .of (begin (.start .epoch none) .faultless [streamingPayer]) [.move (.resume 0)]

/-- The last notes of the payment. -/
def streamedNotes : List Note :=
  .ended :: recordedNotes streamingPayer.config orderKey (.issued 2)
    (recordAt streamingPayer.config streamed .epoch)
    (.read .epoch :: .finished (some streamed) :: .began payment ::
      clearedNotes streamingPayer.config orderKey (.issued 2) .epoch [])

/-- The payer ends with the confirmation. -/
theorem settles_streamed {w : World} (hw : w = .start (.start .epoch none) .faultless) :
    ∃ st given time, Settles streamingPayer.handler w none
        (guarded streamingPayer.config orderKey (served payment)) streamedNotes st ∧
      st.owed = none ∧ st.wait = .nothing (.result (.ok (.executed given))) time := by
  have hlock : Store.expiry 0 Config.standard.lockTtl = .ok (0 + Config.standard.lockTtl.nanos) :=
    Store.expiry_ok (by decide)
  have hcache : Store.expiry 0 Config.standard.cacheTtl =
      .ok (0 + Config.standard.cacheTtl.nanos) := Store.expiry_ok (by decide)
  have hnow : (Clocks.start .epoch none).now = .epoch := by decide
  subst hw
  have hpays : Settles streamingPayer.handler (.start (.start .epoch none) .faultless) none
      (guarded streamingPayer.config orderKey (served payment)) streamedNotes _ :=
    settles_executed (fun _ _ => rfl) hnow rfl rfl hlock hcache rfl rfl rfl
  exact ⟨_, _, _, hpays, rfl, rfl⟩

/-- The log has the notes of one payment, which was executed. -/
theorem streamedPayment_log :
    own 0 streamedPayment.log = streamedNotes ++ [.resumed] ∧
      ∃ t given time, streamedPayment.state.tasks[0]? = some t ∧
        t.wait = .nothing (.result (.ok (.executed given))) time := by
  let s : State Result := begin (.start .epoch none) .faultless [streamingPayer]
  rcases settles_streamed (w := s.world) rfl with ⟨st, given, time, hsettles, howed, hwait⟩
  rw [show payment = streamingPayer.http from rfl,
    ← Caller.program_of_key streamingPayer_key] at hsettles
  rcases resume_settled (s := s) (i := 0) (t := streamingPayer.task) rfl rfl hsettles fun _ => howed
    with ⟨hlog, hstate⟩
  have hwhole : streamedPayment.log = s.entries (.resume 0) := List.append_nil _
  have htask : (s.apply (.resume 0)).tasks[0]? = some (streamingPayer.task.standing st) := by
    rw [hstate]
    rfl
  exact ⟨by rw [hwhole, hlog, own_entriesOf_self], _, given, time, htask, hwait⟩

/-- Three bytes are not too many, so the confirmation is recorded, and just as if it had
declared its length. -/
theorem streamedPayment_recorded :
    Recordable streamingPayer.config streamed ∧
      (∃ now, .read now ∈ own 0 streamedPayment.log ∧
        StoredBy streamedPayment.log 0 orderKey.text
          (recordAt streamingPayer.config streamed now).render streamingPayer.config.cacheTtl) ∧
      reported (own 0 streamedPayment.log) = [.responseCached orderKey.text 201] ∧
      (capture streamingPayer.config orderKey streamed >>= fun given => pure given.received) =
        (capture streamingPayer.config orderKey whole >>= fun given => pure given.received) := by
  have hrecordable : Recordable streamingPayer.config streamed := by decide
  have htrue : DeclaresTruly streamed.body := fun _ n hdeclared => nomatch hdeclared
  have htrue' : DeclaresTruly whole.body := fun _ n hdeclared => (Option.some.inj hdeclared).symm
  have hgives : ∀ response, streamingPayer.handler.Gives (some response) →
      DeclaresTruly response.body := by
    rintro response ⟨_, _, hanswer⟩
    rw [← Option.some.inj hanswer]
    exact htrue
  rcases streamedPayment_log with ⟨hown, t, given, time, ht, hwait⟩
  have hwritten : ∀ k value ttl error,
      .told (.set k value ttl) (.error error) ∉ own 0 streamedPayment.log := by
    intro k value ttl error hmem
    rw [hown] at hmem
    simp [streamedNotes, recordedNotes, clearedNotes, lookedUp, tookLock] at hmem
  rcases recorded_iff_recordable.1 streamingPayer _ _ streamedPayment 0 t given time rfl
    (begins _ _ _).fits rfl rfl ht hwait hgives hwritten with
    ⟨_, key, response, hkey, hfinished, hdisposes⟩
  rw [streamingPayer_key, Option.some.injEq] at hkey
  have hresponse : response = streamed := by
    rw [hown] at hfinished
    simpa [streamedNotes, recordedNotes, clearedNotes, lookedUp, tookLock] using hfinished
  subst hkey hresponse
  have hreported := hdisposes.reported
  rw [if_pos hrecordable] at hreported
  exact ⟨hrecordable, hdisposes.stored hrecordable, hreported,
    recorded_iff_recordable.2 _ _ streamed whole htrue htrue' rfl⟩

-- A fourth byte is one too many, whatever the frames.
example : ¬ Recordable streamingPayer.config { streamed with
    body := .stream [[1], [2, 3], [], [4]] none } := by decide

end Turnstile.Once
