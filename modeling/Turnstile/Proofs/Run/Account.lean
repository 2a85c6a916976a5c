import Turnstile.Proofs.Run.Conduct
import Turnstile.Proofs.Run.Ledger
import Turnstile.Proofs.Run.Remains

/-!
# Accounts of a run

Where each of those who take part in a run keeps a pact of its own, this is what
can be said of the log of all: everybody did what its pact allows and was
answered accordingly, the calls that were carried out are the deeds of one
store, and a call that belongs to nobody was owed by somebody.

An account of a log is one of every earlier log, so that what follows from it
holds at every moment of the run.

Main results:

- Theorem `account`: every chronicle of parties that keep their pacts has an
  account.
- Theorem `Account.origin`: a call was begun or owed by a party, as its pact
  allows.
- Theorem `Account.set_of_found`: a value that is found was set before.
-/

namespace Turnstile.Run

open Store (Answer Call)

variable {α : Type}

/-- Somebody who takes part in a run, with the pact that it is to keep. -/
structure Party (α : Type) where
  program : Program α
  handler : Handler
  /-- When it starts, by the monotonic clock. -/
  time : Nat
  /-- When it is cancelled, if it has not ended by then. -/
  cancelAt : Option Nat
  pact : Pact α

namespace Party

/-- The party as a task. -/
def task (p : Party α) : Task α :=
  Task.start p.program p.handler p.time p.cancelAt

/-- Whatever the party is told, it keeps its pact. -/
def Keeps (p : Party α) : Prop :=
  KeepsFromStart p.handler p.pact p.program

end Party

/-- A run that begins with the parties, and with a store without entries. -/
structure Begins (parties : List (Party α)) (s : State α) : Prop where
  tasks : s.tasks = parties.map Party.task
  detached : s.detached = []
  store : s.world.store = .empty

/-- A run begins with the parties of its members, if its tasks are theirs. -/
theorem Begins.of_members {β : Type} (party : β → Party α) (members : List β) {s : State α}
    (htasks : s.tasks = members.map fun m => (party m).task) (hdetached : s.detached = [])
    (hstore : s.world.store = .empty) : Begins (members.map party) s := by
  refine ⟨?_, hdetached, hstore⟩
  rw [htasks, List.map_map]
  rfl

/-- What can be said of every log of parties that keep their pacts. -/
structure Account (parties : List (Party α)) (log : Log) : Prop where
  /-- Entries stand in the order of time. -/
  sorted : Sorted log
  /-- The calls that were carried out are the deeds of one store. -/
  ran : ∃ store now, Store.Ran (deeds log) store now
  /-- Everybody keeps its pact. -/
  lawful : ∀ i p, parties[i]? = some p → Lawful p.handler p.pact (own i log)
  /-- Nobody else takes part. -/
  absent : ∀ i, parties[i]? = none → own i log = []
  /-- A call that belongs to nobody was left behind. -/
  left : ∀ e past, Tells log e past → e.task = none →
    ∃ call, LeftBehind past call ∧ e.note.IsOf call

section

variable {parties : List (Party α)} {s : State α}

theorem Begins.fits (hs : Begins parties s) : ∀ t ∈ s.tasks, t.Fits := by
  intro t ht
  rw [hs.tasks] at ht
  rcases List.mem_map.1 ht with ⟨p, _, rfl⟩
  exact start_fits p.program p.handler p.time p.cancelAt

/-- The `i`-th party stands where its own log leads, by its pact. -/
theorem conduct (hs : Begins parties s) (hkeeps : ∀ p ∈ parties, p.Keeps)
    (happenings : List Happening) {i : Nat} {p : Party α} (hp : parties[i]? = some p) :
    ∃ t, (Chronicle.of s happenings).state.tasks[i]? = some t ∧
      Lawful p.handler p.pact (own i (Chronicle.of s happenings).log) ∧
      t.stage.Keeps p.handler p.pact (own i (Chronicle.of s happenings).log) := by
  have hfollows := chronicle_path hs.fits happenings
  have htask : s.tasks[i]? = some p.task := by
    rw [hs.tasks]
    simp [hp]
  have hlt : i < (Chronicle.of s happenings).state.tasks.length := by
    rw [hfollows.length]
    exact (List.getElem?_eq_some_iff.1 htask).1
  have hnow := List.getElem?_eq_getElem hlt
  rcases hfollows.path i p.task _ htask hnow with ⟨_, _, hpath⟩
  exact ⟨_, hnow, conduct_of_path (hkeeps p (List.mem_of_getElem? hp)) hpath⟩

/-- A party that has ended ended as its pact allows. -/
theorem ends_of_conduct (hs : Begins parties s) (hkeeps : ∀ p ∈ parties, p.Keeps)
    {happenings : List Happening} {i : Nat} {p : Party α} (hp : parties[i]? = some p) {t : Task α}
    (ht : (Chronicle.of s happenings).state.tasks[i]? = some t) {result : α} {time : Nat}
    (hwait : t.wait = .nothing (.result result) time) :
    ∃ older, own i (Chronicle.of s happenings).log = .ended :: older ∧ p.pact.ends older result := by
  rcases conduct hs hkeeps happenings hp with ⟨t', ht', _, hstage⟩
  rw [ht, Option.some.injEq] at ht'
  subst ht'
  rw [Task.stage_of_result hwait] at hstage
  exact hstage

/-- Every chronicle of parties that keep their pacts has an account. -/
theorem account (hs : Begins parties s) (hkeeps : ∀ p ∈ parties, p.Keeps)
    (happenings : List Happening) : Account parties (Chronicle.of s happenings).log := by
  have hkept := chronicle_kept s happenings
  have hremains := chronicle_remains hs.fits hs.detached happenings
  refine ⟨hkept.sorted, ⟨_, _, hkept.ran hs.store⟩, ?_, ?_, hremains.entries⟩
  · intro i p hp
    rcases conduct hs hkeeps happenings hp with ⟨t, _, hlawful, _⟩
    exact hlawful
  · intro i hnone
    apply (chronicle_path hs.fits happenings).outside
    rw [hs.tasks]
    simp [hnone]

end

namespace Account

variable {parties : List (Party α)} {log past : Log}

/-- An account of a log is one of every earlier log. -/
theorem of_suffix (h : Account parties log) (hs : past <:+ log) : Account parties past := by
  refine ⟨h.sorted.sublist hs.sublist, ?_, ?_, ?_, ?_⟩
  · rcases h.ran with ⟨store, now, hran⟩
    exact hran.exists_of_suffix (deeds_suffix hs)
  · intro i p hp n older hn
    exact h.lawful i p hp n older (hn.trans (own_suffix i hs))
  · intro i hnone
    have hempty := own_suffix i hs
    rw [h.absent i hnone] at hempty
    exact List.suffix_nil.1 hempty
  · intro e older htold hnone
    exact h.left e older (htold.of_suffix hs) hnone

/-- Whoever noted something takes part. -/
theorem exists_party (h : Account parties log) {i : Nat} {n : Note} {older : List Note}
    (hn : n :: older <:+ own i log) : ∃ p, parties[i]? = some p := by
  cases hp : parties[i]? with
  | none =>
      rw [h.absent i hp] at hn
      simp at hn
  | some p => exact ⟨p, rfl⟩

/-- What a party noted it did by its pact. -/
theorem deed_allowed (h : Account parties log) {i : Nat} {n : Note} {older : List Note}
    (hn : n :: older <:+ own i log) (hdeed : n.IsDeed) :
    ∃ p, parties[i]? = some p ∧ p.pact.may older n := by
  rcases h.exists_party hn with ⟨p, hp⟩
  exact ⟨p, hp, (h.lawful i p hp n older hn).2 hdeed⟩

/-- What a party was answered follows what it did. -/
theorem answers (h : Account parties log) {i : Nat} {n : Note} {older : List Note}
    (hn : n :: older <:+ own i log) : ∃ p, parties[i]? = some p ∧ Answers p.handler older n := by
  rcases h.exists_party hn with ⟨p, hp⟩
  exact ⟨p, hp, (h.lawful i p hp n older hn).1⟩

/-- What a party left behind it held, as its pact allows. -/
theorem held_of_quit (h : Account parties log) {t i : Nat} {call : Call}
    (hquit : Tells log ⟨t, some i, .quit (some call)⟩ past) :
    ∃ p older, parties[i]? = some p ∧ .held call :: older <:+ own i past ∧
      p.pact.may older (.held call) := by
  have hown := hquit.own
  rcases h.answers hown with ⟨p, hp, howed⟩
  rcases owedBy_eq_some howed.symm with ⟨newer, older, holder, _⟩
  have hheld : .held call :: older <:+ own i past := by
    rw [holder]
    exact List.suffix_append _ _
  rcases h.deed_allowed (hheld.trans ((List.suffix_cons _ _).trans hown)) trivial with
    ⟨p', hp', hmay⟩
  exact ⟨p', older, hp', hheld, hmay⟩

/-- A call that was carried out was begun by the party that noted it, or was left
behind by one that owed it. -/
theorem origin (h : Account parties log) {t : Nat} {who : Option Nat} {call : Call}
    {answer : Answer} (htold : Tells log ⟨t, who, .done call answer⟩ past) :
    (∃ i p older, who = some i ∧ parties[i]? = some p ∧ own i past = .sent call :: older ∧
      p.pact.may older (.sent call)) ∨
    ∃ t' i behind, Tells past ⟨t', some i, .quit (some call)⟩ behind := by
  cases who with
  | some i =>
      rcases h.answers htold.own with ⟨_, _, older, hown⟩
      have hsent : .sent call :: older <:+ own i log := by
        rw [← hown]
        exact own_suffix i htold.suffix
      rcases h.deed_allowed hsent trivial with ⟨p, hp, hmay⟩
      exact Or.inl ⟨i, p, older, rfl, hp, hown, hmay⟩
  | none =>
      rcases h.left _ _ htold rfl with ⟨call', ⟨t', i, behind, hquit⟩, hcall⟩
      have heq : call = call' := hcall
      subst heq
      exact Or.inr ⟨t', i, behind, hquit⟩

/-- A value that is found was set by a call before, for longer than until then, and
nothing was written under its key since. -/
theorem set_of_found (h : Account parties log) {t : Nat} {who : Option Nat} {key : String}
    {value : Bytes} (hfound : Tells log ⟨t, who, .done (.get key) (.value (some value))⟩ past) :
    ∃ t' who' ttl answer older,
      Tells past ⟨t', who', .done (.set key value ttl) answer⟩ older ∧ t < t' + ttl.nanos ∧
      ∀ d' past', d' :: past' <:+ deeds past →
        ⟨t', .set key value ttl, answer⟩ :: deeds older <:+ past' → ¬ d'.call.Writes key := by
  rcases h.ran with ⟨store, now, hran⟩
  have hanswer := hran.get_answer hfound.deed
  cases hentry : Store.valueUnder key (deeds past) with
  | none =>
      rw [hentry] at hanswer
      cases hanswer
  | some entry =>
      rw [hentry, Option.bind_some, Answer.value.injEq, Store.ValueEntry.at] at hanswer
      by_cases hlive : t < entry.expiresAt
      · rw [if_pos hlive, Option.some.injEq] at hanswer
        rcases Store.exists_of_valueUnder hentry with
          ⟨t', ttl, answer, behind, hset, hexpires, hlast⟩
        rcases exists_of_deed hset with ⟨who', older, htold, rfl⟩
        rw [← hanswer] at htold hlast
        exact ⟨t', who', ttl, answer, older, htold, hexpires ▸ hlive, hlast⟩
      · rw [if_neg hlive] at hanswer
        cases hanswer

end Account

end Turnstile.Run
