import Turnstile.Proofs.Store.Reclaiming
import Turnstile.Redis.Store

/-!
# Expiries at a server

A shared store tells its server how long to keep a value, a lock or a rate window, in whole
milliseconds and never for none.  The longest spans have more milliseconds than the 64 bits in
which they are counted, and the count of such a span starts again from zero: it may be kept
for hardly any time at all.

Main results:

- Theorem `Dialogue.Sends.hold`: what is true of every command of a dialogue is true of those
  that go over a connection.
- Theorem `SharedStore.mem_expiries_iff`: the one expiry that a call tells its server.
- Theorem `SharedStore.expiries_kept_iff`: it is that of the span, and the order of spans is
  kept, just as far as their milliseconds are counted in 64 bits.
-/

namespace Turnstile.Redis

open Store (Call)

/-! ## Commands of a dialogue -/

namespace Dialogue

variable {α : Type} {P : Command → Prop}

/-- Every command that a dialogue may send is of a kind, whatever the replies. -/
def Sends (P : Command → Prop) : Dialogue α → Prop
  | .done _ => True
  | .send c next => P c ∧ ∀ reply, (next reply).Sends P

/-- What is true of every command of a dialogue is true of those that go over a
connection. -/
theorem Sends.hold {d : Dialogue α} (h : d.Sends P) (connection : Connection) :
    ∀ c ∈ (connection.hold d).commands, P c := by
  induction d generalizing connection with
  | done result => cases connection <;> simp [Connection.hold]
  | send c next ih =>
      obtain ⟨hc, hnext⟩ := h
      cases connection with
      | closed => simp [Connection.hold]
      | live reactions =>
          cases reactions with
          | nil => simpa [Connection.hold] using hc
          | cons reaction rest =>
              cases reaction with
              | close => simpa [Connection.hold] using hc
              | reply r =>
                  simp only [Connection.hold, List.mem_cons, forall_eq_or_imp]
                  exact ⟨hc, ih r (hnext r) (.live rest)⟩

/-- The first command of a dialogue goes over every connection that is live. -/
theorem head_mem_hold (c : Command) (next : Reply → Dialogue α) (reactions : List Reaction) :
    c ∈ ((Connection.live reactions).hold (.send c next)).commands := by
  cases reactions with
  | nil => simp [Connection.hold]
  | cons reaction rest => cases reaction <;> simp [Connection.hold]

/-- A question sends one command. -/
theorem ask_sends {c : Command} (hc : P c) (read : Reply → Except Store.Error α) :
    (ask c read).Sends P := by
  refine ⟨hc, fun reply => ?_⟩
  dsimp only
  split <;> trivial

/-- A script is called, and may be sent to the server before it is called again. -/
theorem invoke_sends {s : Script} {key : String} {arguments : List String}
    (hcall : P (callOf s key arguments)) (hload : P (command ["SCRIPT", "LOAD", s.text]))
    (read : Reply → Except Store.Error α) : (invoke s key arguments read).Sends P := by
  refine ⟨hcall, fun reply => ?_⟩
  dsimp only
  split
  · trivial
  · split
    · refine ⟨hload, fun reply => ?_⟩
      dsimp only
      split
      · trivial
      · exact ask_sends hcall read
    · trivial

end Dialogue

/-! ## The expiry that a command tells -/

/-- The argument by which a command tells the server how long to keep an entry: that of a
value, of a lock, or of a rate window. -/
def expiryArgument? : Command → Option Bytes
  | [name, _, millis, _] => if name = Bytes.ofText "PSETEX" then some millis else none
  | [name, _, _, _, _, millis] => if name = Bytes.ofText "SET" then some millis else none
  | [name, _, _, _, _, _, _, millis, _] =>
      if name = Bytes.ofText "EVALSHA" then some millis else none
  | _ => none

/-- The milliseconds for which a command tells the server to keep an entry. -/
def expiryOf? (c : Command) : Option Nat :=
  ((expiryArgument? c).bind Bytes.text?).bind fun text => Text.Decimal.value? text.toList

namespace SharedStore

variable {s : SharedStore} {fresh : String}

/-- The expiries that a store tells its server in a call, in milliseconds. -/
def expiries (s : SharedStore) (fresh : String) (connection : Connection) (call : Call) :
    List Nat :=
  (connection.hold (s.perform fresh call)).commands.filterMap expiryOf?

/-- A call with a span sends no expiry but that of the span. -/
theorem perform_sends (s : SharedStore) (fresh : String) {call : Call} {ttl : Span}
    (httl : call.ttl? = some ttl) :
    (s.perform fresh call).Sends fun c => ∀ n, expiryOf? c = some n → n = millis ttl := by
  cases call with
  | set key value span =>
      obtain rfl : span = ttl := by simpa [Call.ttl?] using httl
      refine Dialogue.ask_sends (fun n hn => ?_) _
      simpa [expiryOf?, expiryArgument?, command, eq_comm] using hn
  | acquireLock key span =>
      obtain rfl : span = ttl := by simpa [Call.ttl?] using httl
      refine Dialogue.ask_sends (fun n hn => ?_) _
      simpa [expiryOf?, expiryArgument?, command, eq_comm] using hn
  | recordInWindow key now window limit span =>
      obtain rfl : span = ttl := by simpa [Call.ttl?] using httl
      refine Dialogue.invoke_sends (fun n hn => ?_) (fun n hn => ?_) _
      · simpa [expiryOf?, expiryArgument?, command, Dialogue.callOf, eq_comm] using hn
      · simp [expiryOf?, expiryArgument?, command] at hn
  | _ => exact nomatch httl

/-- It sends that with its first command. -/
theorem exists_perform_eq (s : SharedStore) (fresh : String) {call : Call} {ttl : Span}
    (httl : call.ttl? = some ttl) :
    ∃ c next, s.perform fresh call = .send c next ∧ expiryOf? c = some (millis ttl) := by
  cases call with
  | set key value span =>
      obtain rfl : span = ttl := by simpa [Call.ttl?] using httl
      exact ⟨_, _, rfl, by simp [expiryOf?, expiryArgument?, command]⟩
  | acquireLock key span =>
      obtain rfl : span = ttl := by simpa [Call.ttl?] using httl
      exact ⟨_, _, rfl, by simp [expiryOf?, expiryArgument?, command]⟩
  | recordInWindow key now window limit span =>
      obtain rfl : span = ttl := by simpa [Call.ttl?] using httl
      exact ⟨_, _, rfl, by simp [expiryOf?, expiryArgument?, command, Dialogue.callOf]⟩
  | _ => exact nomatch httl

/-- Over a connection that is live, a call tells its server one expiry. -/
theorem mem_expiries_iff (s : SharedStore) (fresh : String) (reactions : List Reaction)
    {call : Call} {ttl : Span} (httl : call.ttl? = some ttl) {n : Nat} :
    n ∈ s.expiries fresh (.live reactions) call ↔ n = millis ttl := by
  unfold expiries
  rw [List.mem_filterMap]
  constructor
  · rintro ⟨c, hc, hn⟩
    exact (s.perform_sends fresh httl).hold _ c hc n hn
  · rintro rfl
    obtain ⟨c, next, heq, hc⟩ := s.exists_perform_eq fresh httl
    rw [heq]
    exact ⟨c, Dialogue.head_mem_hold c next reactions, hc⟩

end SharedStore

/-! ## How far they are right -/

/-- The first count of milliseconds that does not fit into 64 bits. -/
def millisBound : Nat := 18_446_744_073_709_551_616

/-- The expiry of a span is its milliseconds just as far as they fit. -/
theorem millis_eq_iff (ttl : Span) :
    millis ttl = max ttl.wholeMillis 1 ↔ ttl.wholeMillis < millisBound := by
  constructor
  · intro heq
    unfold millis at heq
    unfold millisBound
    omega
  · exact fun hfits => millis_eq hfits

theorem wholeMillis_mono {a b : Span} (h : a.nanos ≤ b.nanos) : a.wholeMillis ≤ b.wholeMillis :=
  Nat.div_le_div_right h

/-- Expiries keep the order of spans that fit. -/
theorem millis_mono {a b : Span} (h : a.nanos ≤ b.nanos) (hfits : b.wholeMillis < millisBound) :
    millis a ≤ millis b := by
  have hle := wholeMillis_mono h
  rw [millis_eq (show b.wholeMillis < _ from hfits), millis_eq (Nat.lt_of_le_of_lt hle hfits)]
  omega

/-- The longest span that fits has a longer expiry than the next one. -/
theorem millis_shrinks : millis (.ofMillis millisBound) < millis (.ofMillis (millisBound - 1)) := by
  decide

/-- A store tells its server to keep an entry for so many milliseconds, in a call that asks
for a span. -/
def Tells (ttl : Span) (n : Nat) : Prop :=
  ∃ (s : SharedStore) (fresh : String) (reactions : List Reaction) (call : Call),
    call.ttl? = some ttl ∧ n ∈ s.expiries fresh (.live reactions) call

theorem tells_iff {ttl : Span} {n : Nat} : Tells ttl n ↔ n = millis ttl := by
  constructor
  · rintro ⟨s, fresh, reactions, call, httl, hn⟩
    exact (s.mem_expiries_iff fresh reactions httl).1 hn
  · rintro rfl
    exact ⟨⟨""⟩, "", [], .acquireLock "" ttl, rfl, (SharedStore.mem_expiries_iff _ _ _ rfl).2 rfl⟩

/-- Among the spans up to a longest one, a longer span has no shorter expiry just if the
milliseconds of that longest one fit. -/
theorem order_kept_iff (longest : Span) :
    (∀ a b m n, a.nanos ≤ b.nanos → b.nanos ≤ longest.nanos → Tells a m → Tells b n → m ≤ n) ↔
      longest.wholeMillis < millisBound := by
  constructor
  · intro hkept
    by_contra hlong
    -- The first span that does not fit is not too long, and has a shorter expiry than the
    -- one before it.
    have hreach : (Span.ofMillis millisBound).nanos ≤ longest.nanos := by
      unfold Span.wholeMillis at hlong
      unfold Span.ofMillis
      dsimp only
      omega
    have hle := hkept (.ofMillis (millisBound - 1)) (.ofMillis millisBound) _ _ (by decide)
      hreach (tells_iff.2 rfl) (tells_iff.2 rfl)
    exact absurd millis_shrinks (by omega)
  · intro hfits a b m n hle hlongest hm hn
    rw [tells_iff.1 hm, tells_iff.1 hn]
    exact millis_mono hle (Nat.lt_of_le_of_lt (wholeMillis_mono hlongest) hfits)

/-- Expiries are right, and keep the order of spans, just as far as milliseconds are counted
in 64 bits.  A call with a span, for a value, a lock or a rate window, tells its server one
expiry; it is the whole milliseconds of the span, and one at least, if and only if they fit.
And among the spans up to that of the call a longer span has no shorter expiry under the same
condition. -/
theorem expiries_kept_iff (s : SharedStore) (fresh : String) (reactions : List Reaction)
    {call : Call} {ttl : Span} (httl : call.ttl? = some ttl) :
    (∃ n, (∀ m, m ∈ s.expiries fresh (.live reactions) call ↔ m = n) ∧
      (n = max ttl.wholeMillis 1 ↔ ttl.wholeMillis < millisBound)) ∧
    ((∀ a b m n, a.nanos ≤ b.nanos → b.nanos ≤ ttl.nanos → Tells a m → Tells b n → m ≤ n) ↔
      ttl.wholeMillis < millisBound) := by
  refine ⟨⟨millis ttl, fun m => ?_, millis_eq_iff ttl⟩, order_kept_iff ttl⟩
  exact s.mem_expiries_iff fresh reactions httl

/-- A lock for half a minute is asked for half a minute, and no shorter lock for more. -/
theorem usualLock_kept :
    (∀ m, m ∈ SharedStore.expiries ⟨"admission:"⟩ "token" (.live [.reply (.status "OK")])
      (.acquireLock "k" (.ofSeconds 30)) ↔ m = 30_000) ∧
    ∀ a b m n, a.nanos ≤ b.nanos → b.nanos ≤ (Span.ofSeconds 30).nanos → Tells a m →
      Tells b n → m ≤ n := by
  obtain ⟨⟨n, hone, hright⟩, hordered⟩ := expiries_kept_iff ⟨"admission:"⟩ "token"
    [.reply (.status "OK")] (show (Call.acquireLock "k" (.ofSeconds 30)).ttl? = _ from rfl)
  obtain rfl : n = 30_000 := hright.2 (by decide)
  exact ⟨hone, hordered.2 (by decide)⟩

/-! ## A lock for all time -/

/-- A lock that is asked for a second is kept for a second, and one that is asked for more
than five hundred million years is kept for less. -/
theorem longLock_expires_first :
    (Span.ofSeconds 1).nanos ≤ (Span.ofSeconds 18_446_744_073_709_552).nanos ∧
      1000 ∈ SharedStore.expiries ⟨"admission:"⟩ "token" (.live [.reply (.status "OK")])
        (.acquireLock "k" (.ofSeconds 1)) ∧
      384 ∈ SharedStore.expiries ⟨"admission:"⟩ "token" (.live [.reply (.status "OK")])
        (.acquireLock "k" (.ofSeconds 18_446_744_073_709_552)) ∧
      ¬ (1000 ≤ 384) ∧ 384 ≠ max (Span.ofSeconds 18_446_744_073_709_552).wholeMillis 1 := by
  refine ⟨by decide, ?_, ?_, by decide, by decide⟩
  · exact (SharedStore.mem_expiries_iff _ _ _ rfl).2 (by decide)
  · exact (SharedStore.mem_expiries_iff _ _ _ rfl).2 (by decide)

end Turnstile.Redis
