import Turnstile.Store.Basic
import Turnstile.Store.Table
import Turnstile.Store.Window
import Turnstile.Time.Moment

/-!
# The store of a single instance

A local store keeps its entries in three tables: values, locks and rate
windows.  Entries expire by a monotonic clock, whose reading every call is
given in nanoseconds.  An expired entry is as good as gone; a purge only gives
its room back.

A call overflows where it would have to note an expiry, or a stamp, that is
out of range.
-/

namespace Turnstile.Store

/-- Why a call cannot be carried out at all. -/
inductive Overflow where
  /-- The end of the span of time is out of the range of the clock. -/
  | expiry
  /-- The next free stamp is out of the range of stamps. -/
  | stamp
  deriving DecidableEq

/-- The end of a span of time that begins at `now`. -/
def expiry (now : Nat) (ttl : Span) : Except Overflow Nat :=
  match Moment.end? now ttl with
  | some moment => .ok moment
  | none => .error .expiry

/-- A stored value. -/
structure ValueEntry where
  value : Bytes
  expiresAt : Nat
  deriving DecidableEq

/-- A lock that is held. -/
structure HeldLock where
  token : Token
  expiresAt : Nat
  deriving DecidableEq

/-- The store of a single instance. -/
structure LocalStore where
  values : Table ValueEntry
  locks : Table HeldLock
  windows : Table RateWindow
  deriving DecidableEq

namespace LocalStore

/-- The store without entries. -/
def empty : LocalStore := ⟨.empty, .empty, .empty⟩

/-! ## Values -/

/-- The value under a key, if it has not expired. -/
def get (s : LocalStore) (now : Nat) (key : String) : Option Bytes :=
  match s.values.lookup key with
  | some entry => if now < entry.expiresAt then some entry.value else none
  | none => none

/-- Keeps a value under a key for a span of time. -/
def set (s : LocalStore) (now : Nat) (key : String) (value : Bytes) (ttl : Span) :
    Except Overflow LocalStore :=
  match expiry now ttl with
  | .error e => .error e
  | .ok expiresAt => .ok { s with values := s.values.insert key ⟨value, expiresAt⟩ }

/-- Removes the value and the rate window under a key. -/
def delete (s : LocalStore) (key : String) : LocalStore :=
  { s with values := s.values.erase key, windows := s.windows.erase key }

/-! ## Locks -/

/-- Takes the lock under a key with a fresh token, if it is free or has
expired. -/
def acquire (s : LocalStore) (now : Nat) (key : String) (ttl : Span) (fresh : Token) :
    Except Overflow (Option Token × LocalStore) :=
  match expiry now ttl with
  | .error e => .error e
  | .ok expiresAt =>
      let taken := { s with locks := s.locks.insert key ⟨fresh, expiresAt⟩ }
      match s.locks.lookup key with
      | some held => if held.expiresAt ≤ now then .ok (some fresh, taken) else .ok (none, s)
      | none => .ok (some fresh, taken)

/-- Frees the lock under a key, if it is held under the token. -/
def release (s : LocalStore) (key : String) (token : Token) : LocalStore :=
  match s.locks.lookup key with
  | some held => if held.token = token then { s with locks := s.locks.erase key } else s
  | none => s

/-! ## Rate windows -/

/-- The stamps of a window that still count when a request is recorded. -/
def liveStamps (w : RateWindow) (now : Nat) (start : Int) : List Int :=
  if w.isExpired now then [] else w.live start

/-- Records a request in the window under a key, if fewer than `limit` count.  A
request whose stamp or expiry is out of range leaves the store as it was; a store
that notices this only after it has put the stamp into the window keeps the stamp,
which shows to nobody but those who call it after it broke off. -/
def record (s : LocalStore) (now : Nat) (key : String) (stamp : Int) (window : Span)
    (limit : Nat) (ttl : Span) : Except Overflow (WindowOutcome × LocalStore) :=
  let entry := (s.windows.lookup key).getD RateWindow.empty
  let stamps := liveStamps entry now (windowStart stamp window)
  let count := stamps.length
  if limit ≤ count then
    .ok (⟨false, count, stamps.head?⟩,
      { s with windows := s.windows.insert key { entry with stamps := stamps } })
  else
    let free := RateWindow.firstFree stamp stamps
    if Timestamp.maxStamp < free then .error .stamp
    else
      match expiry now ttl with
      | .error e => .error e
      | .ok expiresAt =>
          let stamps := RateWindow.insertSorted free stamps
          .ok (⟨true, count + 1, stamps.head?⟩,
            { s with windows := s.windows.insert key ⟨stamps, some expiresAt⟩ })

/-- The number of requests in the window under a key. -/
def count (s : LocalStore) (now : Nat) (key : String) (stamp : Int) (window : Span) : Nat :=
  match s.windows.lookup key with
  | some entry => (liveStamps entry now (windowStart stamp window)).length
  | none => 0

/-! ## Purging -/

/-- The store without its expired entries. -/
def purge (s : LocalStore) (now : Nat) : LocalStore where
  values := s.values.keep fun entry => now < entry.expiresAt
  locks := s.locks.keep fun held => now < held.expiresAt
  windows := s.windows.keep fun window => !window.isExpired now

/-- The number of entries in the three tables. -/
def size (s : LocalStore) : Nat :=
  s.values.size + s.locks.size + s.windows.size

/-- The number of entries that a purge removes. -/
def purgeable (s : LocalStore) (now : Nat) : Nat :=
  s.size - (s.purge now).size

/-! ## Calls -/

/-- Carries out a call.  `fresh` is the token for a lock that is taken. -/
def perform (s : LocalStore) (now : Nat) (fresh : Token) :
    Call → Except Overflow (Answer × LocalStore)
  | .get key => .ok (.value (s.get now key), s)
  | .set key value ttl => (s.set now key value ttl).map fun s => (.done, s)
  | .delete key => .ok (.done, s.delete key)
  | .acquireLock key ttl => (s.acquire now key ttl fresh).map fun r => (.token r.1, r.2)
  | .releaseLock key token => .ok (.done, s.release key token)
  | .recordInWindow key stamp window limit ttl =>
      (s.record now key stamp window limit ttl).map fun r => (.window r.1, r.2)
  | .countInWindow key stamp window => .ok (.count (s.count now key stamp window), s)

end LocalStore

end Turnstile.Store
