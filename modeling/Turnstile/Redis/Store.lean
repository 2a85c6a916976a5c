import Turnstile.Digest.Sha1
import Turnstile.Redis.Reply
import Turnstile.Redis.Score

/-!
# The shared store

A store that all instances of the service share keeps its entries at a server.
Values are kept under their keys with an expiry; a lock is a value that is set
only if there is none, and removed only under its token; a rate window is a set
of entries sorted by stamp.  What must be one atomic step is a script, which
the server knows by its digest and is sent only when it does not know it.

A call is a dialogue: commands to the server, each followed by what is done
with its reply.

Main results:

- `millis_eq`: an expiry is never zero.
-/

namespace Turnstile.Redis

open Store (Answer Call WindowOutcome)

/-- A command: its name and arguments. -/
abbrev Command := List Bytes

/-- A command of texts. -/
def command (arguments : List String) : Command :=
  arguments.map Bytes.ofText

/-! ## Scripts -/

/-- A script, by its lines. -/
structure Script where
  lines : List String
  deriving DecidableEq

namespace Script

/-- The text of a script. -/
def text (s : Script) : String :=
  "\n" ++ String.join (s.lines.map (· ++ "\n"))

/-- The digest by which the server knows a script. -/
def digest (s : Script) : String :=
  Digest.Sha1.hexDigest (Bytes.ofText s.text)

/-- Drops what is older than the window, counts the rest, and records a member
if fewer than the limit are left. -/
def slidingWindow : Script where
  lines :=
    ["local key = KEYS[1]",
     "local now = ARGV[1]",
     "local window_start = ARGV[2]",
     "local limit = tonumber(ARGV[3])",
     "local ttl_ms = tonumber(ARGV[4])",
     "local member = ARGV[5]",
     "",
     "redis.call('ZREMRANGEBYSCORE', key, '-inf', '(' .. window_start)",
     "local count = redis.call('ZCARD', key)",
     "local admitted = 0",
     "if count < limit then",
     "  redis.call('ZADD', key, now, member)",
     "  redis.call('PEXPIRE', key, ttl_ms)",
     "  count = count + 1",
     "  admitted = 1",
     "end",
     "",
     "local oldest = redis.call('ZRANGE', key, 0, 0, 'WITHSCORES')",
     "return \x7badmitted, count, oldest[2] or ''\x7d"]

/-- Removes a lock if it is held under the token. -/
def releaseLock : Script where
  lines :=
    ["if redis.call('GET', KEYS[1]) == ARGV[1] then",
     "  return redis.call('DEL', KEYS[1])",
     "end",
     "return 0"]

end Script

/-! ## Dialogues -/

/-- A dialogue with a server that ends in a result. -/
inductive Dialogue (α : Type) where
  | done (result : Except Store.Error α)
  | send (command : Command) (next : Reply → Dialogue α)

namespace Dialogue

variable {α : Type}

/-- Sends one command and reads its reply.  A failure in the reply is that of
the call. -/
def ask (c : Command) (read : Reply → Except Store.Error α) : Dialogue α :=
  .send c fun reply =>
    match reply.failure? with
    | some text => .done (.error (.backend text))
    | none => .done (read reply)

/-- The command that calls a script on one key. -/
def callOf (s : Script) (key : String) (arguments : List String) : Command :=
  command (["EVALSHA", s.digest, "1", key] ++ arguments)

/-- Calls a script.  One that the server does not know is sent to it first. -/
def invoke (s : Script) (key : String) (arguments : List String)
    (read : Reply → Except Store.Error α) : Dialogue α :=
  .send (callOf s key arguments) fun reply =>
    match reply.failure? with
    | none => .done (read reply)
    | some text =>
        if Reply.isUnknownScript text then
          .send (command ["SCRIPT", "LOAD", s.text]) fun reply =>
            match reply.failure? with
            | some text => .done (.error (.backend text))
            | none => ask (callOf s key arguments) read
        else .done (.error (.backend text))

end Dialogue

/-! ## Calls -/

/-- An expiry in whole milliseconds, of which the server counts 64 bits and
refuses zero. -/
def millis (ttl : Span) : Nat :=
  max (ttl.wholeMillis % 18_446_744_073_709_551_616) 1

/-- The store of a server: what stands before every key. -/
structure SharedStore where
  keyStart : String
  deriving DecidableEq

namespace SharedStore

/-- The key at the server. -/
def key (s : SharedStore) (key : String) : String :=
  s.keyStart ++ key

/-- The outcome that a script replies with. -/
def readOutcome : Reply → Except Store.Error WindowOutcome
  | .array [admitted, count, oldest] => do
      let admitted ← admitted.signed
      let count ← count.count
      let oldest ← oldest.text
      .ok ⟨admitted = 1, count, if oldest = "" then none else stampOfScore? oldest⟩
  | _ => .error Reply.unexpected

/-- The text of a token. -/
def tokenText : Store.Token → String
  | .issued n => Text.Decimal.ofNat n
  | .text s => s

/-- Carries out a call.  `fresh` is a text that was never used before. -/
def perform (s : SharedStore) (fresh : String) : Call → Dialogue Answer
  | .get key =>
      .ask (command ["GET", s.key key]) fun reply =>
        reply.text?.map fun text => .value (text.map Bytes.ofText)
  | .set key value ttl =>
      .ask (command ["PSETEX", s.key key, Text.Decimal.ofNat (millis ttl)] ++ [value])
        fun _ => .ok .done
  | .delete key => .ask (command ["DEL", s.key key]) fun _ => .ok .done
  | .acquireLock key ttl =>
      .ask (command ["SET", s.key key, fresh, "NX", "PX", Text.Decimal.ofNat (millis ttl)])
        fun reply => reply.text?.map fun text => .token (text.map fun _ => .text fresh)
  | .releaseLock key token =>
      .invoke .releaseLock (s.key key) [tokenText token] fun reply =>
        reply.signed.map fun _ => .done
  | .recordInWindow key now window limit ttl =>
      .invoke .slidingWindow (s.key key)
        [Text.Decimal.ofInt now, Text.Decimal.ofInt (Store.windowStart now window),
         Text.Decimal.ofNat limit, Text.Decimal.ofNat (millis ttl),
         Text.Decimal.ofInt now ++ ":" ++ fresh]
        fun reply => (readOutcome reply).map .window
  | .countInWindow key now window =>
      .ask (command ["ZCOUNT", s.key key, Text.Decimal.ofInt (Store.windowStart now window),
          "+inf"])
        fun reply => reply.count.map .count

end SharedStore

/-! ## Servers -/

/-- What a server does with a command. -/
inductive Reaction where
  | reply (r : Reply)
  /-- It ends the connection. -/
  | close

/-- A connection to a server: what it will do with the next commands, or
nothing once it has ended. -/
inductive Connection where
  | live (reactions : List Reaction)
  | closed

/-- How a dialogue over a connection went. -/
structure Exchange (α : Type) where
  commands : List Command
  result : Except Store.Error α
  connection : Connection

/-- The error of a connection that has ended. -/
def disconnected : Store.Error := .backend "connection closed"

/-- Holds a dialogue over a connection. -/
def Connection.hold {α : Type} : Connection → Dialogue α → Exchange α
  | connection, .done result => ⟨[], result, connection⟩
  | .closed, .send _ _ => ⟨[], .error disconnected, .closed⟩
  | .live [], .send c _ => ⟨[c], .error disconnected, .closed⟩
  | .live (.close :: _), .send c _ => ⟨[c], .error disconnected, .closed⟩
  | .live (.reply r :: rest), .send c next =>
      let exchange := Connection.hold (.live rest) (next r)
      { exchange with commands := c :: exchange.commands }

/-! ## Expiries -/

/-- An expiry is never zero. -/
theorem one_le_millis (ttl : Span) : 1 ≤ millis ttl :=
  Nat.le_max_right ..

/-- The expiry of a span whose milliseconds fit into 64 bits. -/
theorem millis_eq {ttl : Span} (h : ttl.wholeMillis < 18_446_744_073_709_551_616) :
    millis ttl = max ttl.wholeMillis 1 := by
  rw [millis, Nat.mod_eq_of_lt h]

end Turnstile.Redis
