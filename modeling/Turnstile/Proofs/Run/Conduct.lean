import Turnstile.Proofs.Run.Path

/-!
# Conduct of programs

A pact says what a task may do after what it noted before, and how it may end.
A program keeps a pact if it does so whatever it is told: whatever its calls
are answered, whether they are carried out or lost, what its handler responds
and where it is broken off.  Whether a program keeps a pact is found by going
down its tree once.

A task whose program keeps a pact keeps it in every run, however the others and
the store behave.

Main results:

- Theorem `keeps_bind`: the pact of a sequence is that of its parts.
- Theorem `conduct_of_path`: whoever keeps a pact notes nothing that it does not
  allow, and ends as it allows.
-/

namespace Turnstile.Run

open Store (Answer Call)

variable {α β : Type}

/-! ## What surrounds a task -/

/-- The note of a call that was carried out with an answer, or given up. -/
def outcome (call : Call) : Option Answer → Note
  | some answer => .done call answer
  | none => .lost call

/-- Whether a task does the thing that it notes by itself. -/
def Note.IsDeed : Note → Prop
  | .emitted _ => True
  | .paused _ => True
  | .held _ => True
  | .unheld => True
  | .sent _ => True
  | .began _ => True
  | .quit _ => True
  | _ => False

/-- What a task notes of its surroundings fits what it did before: only a call
that was begun is carried out or lost, its result is told after that, and only
a run that was begun ends. -/
def Answers (handler : Handler) (past : List Note) : Note → Prop
  | .done call _ => ∃ older, past = .sent call :: older
  | .lost call => ∃ older, past = .sent call :: older
  | .told call result =>
      ∃ answer older, past = outcome call answer :: .sent call :: older ∧ Reports answer result
  | .finished response =>
      (∃ request older, past = .began request :: older) ∧
        ∀ r, response = some r → handler.Gives (some r)
  | .quit owed => owed = owedBy past
  | _ => True

/-! ## Pacts -/

/-- What a task may do, and how it may end. -/
structure Pact (α : Type) where
  /-- What the task may do after what it noted before. -/
  may : List Note → Note → Prop
  /-- The results with which it may end after what it noted before. -/
  ends : List Note → α → Prop

/-- Whether the task may be broken off after what it noted before. -/
def Pact.mayQuit (P : Pact α) (past : List Note) : Prop :=
  P.may past (.quit (owedBy past))

/-- The pact of the first part of a sequence. -/
def Pact.upTo (P : Pact β) (ends : List Note → α → Prop) : Pact α :=
  ⟨P.may, ends⟩

/-- A program keeps a pact after what was noted before, whatever it is told. -/
def Keeps (handler : Handler) (P : Pact α) : List Note → Program α → Prop
  | past, .done a => P.ends past a
  | past, .crash => P.mayQuit past
  | past, .call call _ next =>
      P.may past (.sent call) ∧ ∀ answer,
        P.mayQuit (outcome call answer :: .sent call :: past) ∧ ∀ result, Reports answer result →
          Keeps handler P (.told call result :: outcome call answer :: .sent call :: past)
            (next result)
  | past, .sleep span next =>
      P.may past (.paused span) ∧ P.mayQuit (.paused span :: past) ∧
        Keeps handler P (.resumed :: .paused span :: past) next
  | past, .now next => ∀ t, Keeps handler P (.read t :: past) (next t)
  | past, .emit event next =>
      P.may past (.emitted event) ∧ Keeps handler P (.emitted event :: past) next
  | past, .serve request next =>
      P.may past (.began request) ∧ P.mayQuit (.finished none :: .began request :: past) ∧
        ∀ response, handler.Gives (some response) →
          Keeps handler P (.finished (some response) :: .began request :: past) (next response)
  | past, .fresh next => ∀ n, Keeps handler P (.drew n :: past) (next n)
  | past, .hold call next => P.may past (.held call) ∧ Keeps handler P (.held call :: past) next
  | past, .unhold next => P.may past .unheld ∧ Keeps handler P (.unheld :: past) next

variable {handler : Handler}

/-- The pact of a sequence is that of its parts. -/
theorem keeps_bind {P : Pact β} {past : List Note} {p : Program α} {f : α → Program β} :
    Keeps handler P past (p.bind f) ↔
      Keeps handler (P.upTo fun past a => Keeps handler P past (f a)) past p := by
  induction p generalizing past with
  | done a => rfl
  | crash => rfl
  | call call deadline next ih => simp only [Program.bind, Keeps, Pact.mayQuit, Pact.upTo, ih]
  | sleep span next ih => simp only [Program.bind, Keeps, Pact.mayQuit, Pact.upTo, ih]
  | now next ih => simp only [Program.bind, Keeps, Pact.upTo, ih]
  | emit event next ih => simp only [Program.bind, Keeps, Pact.upTo, ih]
  | serve request next ih => simp only [Program.bind, Keeps, Pact.mayQuit, Pact.upTo, ih]
  | fresh next ih => simp only [Program.bind, Keeps, Pact.upTo, ih]
  | hold call next ih => simp only [Program.bind, Keeps, Pact.upTo, ih]
  | unhold next ih => simp only [Program.bind, Keeps, Pact.upTo, ih]

/-- A pact that allows more is kept by the programs that keep one that allows
less. -/
theorem Keeps.mono {P Q : Pact α} (hmay : ∀ past n, P.may past n → Q.may past n)
    (hends : ∀ past a, P.ends past a → Q.ends past a) {past : List Note} {p : Program α}
    (h : Keeps handler P past p) : Keeps handler Q past p := by
  induction p generalizing past with
  | done a => exact hends past a h
  | crash => exact hmay _ _ h
  | call call deadline next ih =>
      refine ⟨hmay _ _ h.1, ?_⟩
      intro answer
      rcases h.2 answer with ⟨hquit, hnext⟩
      exact ⟨hmay _ _ hquit, fun result hreports => ih result (hnext result hreports)⟩
  | sleep span next ih => exact ⟨hmay _ _ h.1, hmay _ _ h.2.1, ih h.2.2⟩
  | now next ih => exact fun t => ih t (h t)
  | emit event next ih => exact ⟨hmay _ _ h.1, ih h.2⟩
  | serve request next ih =>
      exact ⟨hmay _ _ h.1, hmay _ _ h.2.1, fun r hr => ih r (h.2.2 r hr)⟩
  | fresh next ih => exact fun n => ih n (h n)
  | hold call next ih => exact ⟨hmay _ _ h.1, ih h.2⟩
  | unhold next ih => exact ⟨hmay _ _ h.1, ih h.2⟩

/-- Two pacts are kept together by a program that keeps both. -/
theorem Keeps.and {P Q : Pact α} {past : List Note} {p : Program α} (h : Keeps handler P past p)
    (h' : Keeps handler Q past p) :
    Keeps handler ⟨fun past n => P.may past n ∧ Q.may past n,
      fun past a => P.ends past a ∧ Q.ends past a⟩ past p := by
  induction p generalizing past with
  | done a => exact ⟨h, h'⟩
  | crash => exact ⟨h, h'⟩
  | call call deadline next ih =>
      refine ⟨⟨h.1, h'.1⟩, ?_⟩
      intro answer
      rcases h.2 answer with ⟨hquit, hnext⟩
      rcases h'.2 answer with ⟨hquit', hnext'⟩
      exact ⟨⟨hquit, hquit'⟩, fun result hr => ih result (hnext result hr) (hnext' result hr)⟩
  | sleep span next ih => exact ⟨⟨h.1, h'.1⟩, ⟨h.2.1, h'.2.1⟩, ih h.2.2 h'.2.2⟩
  | now next ih => exact fun t => ih t (h t) (h' t)
  | emit event next ih => exact ⟨⟨h.1, h'.1⟩, ih h.2 h'.2⟩
  | serve request next ih =>
      exact ⟨⟨h.1, h'.1⟩, ⟨h.2.1, h'.2.1⟩, fun r hr => ih r (h.2.2 r hr) (h'.2.2 r hr)⟩
  | fresh next ih => exact fun n => ih n (h n) (h' n)
  | hold call next ih => exact ⟨⟨h.1, h'.1⟩, ih h.2 h'.2⟩
  | unhold next ih => exact ⟨⟨h.1, h'.1⟩, ih h.2 h'.2⟩

/-- The pact to end only in some ways. -/
def Pact.ending (ends : List Note → α → Prop) : Pact α :=
  ⟨fun _ _ => True, ends⟩

/-- What was noted before a program lies behind its end. -/
theorem keeps_behind (past : List Note) (p : Program α) :
    Keeps handler (.ending fun newer _ => past <:+ newer) past p := by
  have hkeeps : ∀ newer, past <:+ newer →
      Keeps handler (.ending fun newer _ => past <:+ newer) newer p := by
    induction p with
    | done a => exact fun newer hs => hs
    | crash => exact fun _ _ => trivial
    | call call deadline next ih =>
        intro newer hs
        refine ⟨trivial, fun answer => ⟨trivial, fun result _ => ih result _ ?_⟩⟩
        exact hs.trans ⟨[_, _, _], rfl⟩
    | sleep span next ih => exact fun newer hs => ⟨trivial, trivial, ih _ (hs.trans ⟨[_, _], rfl⟩)⟩
    | now next ih => exact fun newer hs t => ih t _ (hs.trans (List.suffix_cons _ _))
    | emit event next ih => exact fun newer hs => ⟨trivial, ih _ (hs.trans (List.suffix_cons _ _))⟩
    | serve request next ih =>
        intro newer hs
        exact ⟨trivial, trivial, fun response _ => ih response _ (hs.trans ⟨[_, _], rfl⟩)⟩
    | fresh next ih => exact fun newer hs n => ih n _ (hs.trans (List.suffix_cons _ _))
    | hold call next ih => exact fun newer hs => ⟨trivial, ih _ (hs.trans (List.suffix_cons _ _))⟩
    | unhold next ih => exact fun newer hs => ⟨trivial, ih _ (hs.trans (List.suffix_cons _ _))⟩
  exact hkeeps past List.suffix_rfl

/-- A program that may end in any way keeps the pact to end so. -/
theorem keeps_ending {ends : List Note → α → Prop} (hends : ∀ past a, ends past a)
    (past : List Note) (p : Program α) : Keeps handler (.ending ends) past p :=
  (keeps_behind past p).mono (fun _ _ _ => trivial) fun newer a _ => hends newer a

/-- Going on with a result changes how a program ends, and nothing else. -/
theorem Keeps.map {P : Pact α} {Q : Pact β} {past : List Note} {p : Program α}
    (h : Keeps handler P past p) (f : α → β) (hmay : Q.may = P.may)
    (hends : ∀ past a, P.ends past a → Q.ends past (f a)) :
    Keeps handler Q past (p >>= fun a => pure (f a)) := by
  refine keeps_bind.2 (Keeps.mono ?_ ?_ h)
  · intro past n hdone
    show Q.may past n
    rw [hmay]
    exact hdone
  · intro past a hend
    exact hends past a hend

/-! ## Stages -/

/-- A task keeps a pact from where it stands on. -/
def Stage.Keeps (handler : Handler) (P : Pact α) (past : List Note) (s : Stage α) : Prop :=
  match s.point with
  | .resting p => P.mayQuit past ∧ Run.Keeps handler P (.resumed :: past) p
  | .going p => Run.Keeps handler P past p
  | .calling call next =>
      (∃ older, past = .sent call :: older) ∧ ∀ answer,
        P.mayQuit (outcome call answer :: past) ∧ ∀ result, Reports answer result →
          Run.Keeps handler P (.told call result :: outcome call answer :: past) (next result)
  | .called call answer next =>
      (∃ older, past = outcome call answer :: .sent call :: older) ∧
        P.mayQuit past ∧ ∀ result, Reports answer result →
          Run.Keeps handler P (.told call result :: past) (next result)
  | .serving next =>
      (∃ request older, past = .began request :: older) ∧ P.mayQuit (.finished none :: past) ∧
        ∀ response, handler.Gives (some response) →
          Run.Keeps handler P (.finished (some response) :: past) (next response)
  | .stopped => P.mayQuit past
  | .ended a => ∃ older, past = .ended :: older ∧ P.ends older a
  | .over => True

/-- The notes of a task are what its surroundings answer and what a pact
allows. -/
def Lawful (handler : Handler) (P : Pact α) (notes : List Note) : Prop :=
  ∀ n past, n :: past <:+ notes → Answers handler past n ∧ (n.IsDeed → P.may past n)

/-- What was noted before is lawful as well. -/
theorem Lawful.of_suffix {P : Pact α} {past notes : List Note} (h : Lawful handler P notes)
    (hs : past <:+ notes) : Lawful handler P past :=
  fun n older hn => h n older (hn.trans hs)

/-- A task that keeps a pact does next only what the pact allows, and goes on to
keep it. -/
theorem keeps_step {P : Pact α} {past : List Note} {s s' : Stage α} {n : Note}
    (hs : s.Keeps handler P past) (howed : owedBy past = s.owed) (hn : s.Step handler n s') :
    s'.Keeps handler P (n :: past) ∧ Answers handler past n ∧ (n.IsDeed → P.may past n) := by
  cases hn with
  | resumed => exact ⟨hs.2, trivial, fun h => h.elim⟩
  | ended => exact ⟨⟨past, rfl, hs⟩, trivial, fun h => h.elim⟩
  | crashed =>
      subst howed
      exact ⟨trivial, rfl, fun _ => hs⟩
  | sent => exact ⟨⟨⟨past, rfl⟩, hs.2⟩, trivial, fun _ => hs.1⟩
  | @done c a next o =>
      rcases hs with ⟨⟨older, rfl⟩, hnext⟩
      exact ⟨⟨⟨older, rfl⟩, hnext (some a)⟩, ⟨older, rfl⟩, fun h => h.elim⟩
  | lost =>
      rcases hs with ⟨⟨older, rfl⟩, hnext⟩
      exact ⟨⟨⟨older, rfl⟩, hnext none⟩, ⟨older, rfl⟩, fun h => h.elim⟩
  | @told c answer result next o hreports =>
      rcases hs with ⟨⟨older, rfl⟩, hquit, hnext⟩
      exact ⟨hnext result hreports, ⟨answer, older, rfl, hreports⟩, fun h => h.elim⟩
  | calledOff =>
      subst howed
      exact ⟨trivial, rfl, fun _ => hs.2.1⟩
  | paused => exact ⟨⟨hs.2.1, hs.2.2⟩, trivial, fun _ => hs.1⟩
  | restOff =>
      subst howed
      exact ⟨trivial, rfl, fun _ => hs.1⟩
  | read => exact ⟨hs _, trivial, fun h => h.elim⟩
  | emitted => exact ⟨hs.2, trivial, fun _ => hs.1⟩
  | drew => exact ⟨hs _, trivial, fun h => h.elim⟩
  | began => exact ⟨⟨⟨_, past, rfl⟩, hs.2⟩, trivial, fun _ => hs.1⟩
  | finished hgives =>
      rcases hs with ⟨hbegan, hquit, hnext⟩
      refine ⟨hnext _ hgives, ⟨hbegan, ?_⟩, fun h => h.elim⟩
      intro r hr
      rw [← hr]
      exact hgives
  | dropped =>
      rcases hs with ⟨hbegan, hquit, hnext⟩
      exact ⟨hquit, ⟨hbegan, fun r hr => nomatch hr⟩, fun h => h.elim⟩
  | stopped =>
      subst howed
      exact ⟨trivial, rfl, fun _ => hs⟩
  | held => exact ⟨hs.2, trivial, fun _ => hs.1⟩
  | unheld => exact ⟨hs.2, trivial, fun _ => hs.1⟩

/-- A program keeps a pact from its start on. -/
structure KeepsFromStart (handler : Handler) (P : Pact α) (p : Program α) : Prop where
  quit : P.may [] (.quit none)
  keeps : Keeps handler P [.resumed] p

theorem KeepsFromStart.map {P : Pact α} {p : Program α} (h : KeepsFromStart handler P p) (f : α → β)
    {ends : List Note → β → Prop} (hends : ∀ past a, P.ends past a → ends past (f a)) :
    KeepsFromStart handler ⟨P.may, ends⟩ (p >>= fun a => pure (f a)) :=
  ⟨h.quit, h.keeps.map f rfl hends⟩

/-- Whoever keeps a pact notes nothing that it does not allow, and ends as it
allows. -/
theorem conduct_of_path {P : Pact α} {p : Program α} {notes : List Note} {s : Stage α}
    (hp : KeepsFromStart handler P p) (h : Path handler ⟨.resting p, none⟩ notes s) :
    Lawful handler P notes ∧ s.Keeps handler P notes := by
  induction h with
  | refl =>
      refine ⟨?_, hp.quit, hp.keeps⟩
      intro n past hsuffix
      simp at hsuffix
  | step hpath hn ih =>
      rcases ih with ⟨hlawful, hkeeps⟩
      rcases keeps_step hkeeps (owedBy_eq_owed hpath) hn with ⟨hnext, hanswers, hmay⟩
      refine ⟨?_, hnext⟩
      intro m past hsuffix
      rcases List.suffix_cons_iff.1 hsuffix with heq | hsuffix
      · rw [List.cons.injEq] at heq
        rw [heq.1, heq.2]
        exact ⟨hanswers, hmay⟩
      · exact hlawful m past hsuffix

/-! ## The calls of a program -/

/-- The pact to make only some calls and to owe only some. -/
def Pact.onlyCalls (made owed : Call → Prop) (ends : List Note → α → Prop) : Pact α where
  may _ n :=
    match n with
    | .sent call => made call
    | .held call => owed call
    | _ => True
  ends := ends

/-- A result that a program may come to, by what it is told. -/
def Yields : Program α → α → Prop
  | .done a, b => b = a
  | .crash, _ => False
  | .call _ _ next, b => ∃ result, Yields (next result) b
  | .sleep _ next, b => Yields next b
  | .now next, b => ∃ t, Yields (next t) b
  | .emit _ next, b => Yields next b
  | .serve _ next, b => ∃ response, Yields (next response) b
  | .fresh next, b => ∃ n, Yields (next n) b
  | .hold _ next, b => Yields next b
  | .unhold next, b => Yields next b

/-- A program makes only some calls and owes only some, whatever it is told. -/
def Makes (made owed : Call → Prop) : Program α → Prop
  | .done _ => True
  | .crash => True
  | .call call _ next => made call ∧ ∀ result, Makes made owed (next result)
  | .sleep _ next => Makes made owed next
  | .now next => ∀ t, Makes made owed (next t)
  | .emit _ next => Makes made owed next
  | .serve _ next => ∀ response, Makes made owed (next response)
  | .fresh next => ∀ n, Makes made owed (next n)
  | .hold call next => owed call ∧ Makes made owed next
  | .unhold next => Makes made owed next

section

variable {made owed : Call → Prop}

theorem Makes.bind {p : Program α} {f : α → Program β} (h : Makes made owed p)
    (hnext : ∀ a, Yields p a → Makes made owed (f a)) : Makes made owed (p >>= f) := by
  show Makes made owed (p.bind f)
  induction p with
  | done a => exact hnext a rfl
  | crash => exact trivial
  | call call deadline next ih =>
      exact ⟨h.1, fun result => ih result (h.2 result) fun a ha => hnext a ⟨result, ha⟩⟩
  | sleep span next ih => exact ih h hnext
  | now next ih => exact fun t => ih t (h t) fun a ha => hnext a ⟨t, ha⟩
  | emit event next ih => exact ih h hnext
  | serve request next ih =>
      exact fun response => ih response (h response) fun a ha => hnext a ⟨response, ha⟩
  | fresh next ih => exact fun n => ih n (h n) fun a ha => hnext a ⟨n, ha⟩
  | hold call next ih => exact ⟨h.1, ih h.2 hnext⟩
  | unhold next ih => exact ih h hnext

/-- A program that makes only some calls keeps the pact to do so. -/
theorem Makes.keeps {p : Program α} (h : Makes made owed p) (past : List Note) :
    Keeps handler (.onlyCalls made owed fun _ _ => True) past p := by
  induction p generalizing past with
  | done a => exact trivial
  | crash => exact trivial
  | call call deadline next ih =>
      exact ⟨h.1, fun answer => ⟨trivial, fun result _ => ih result (h.2 result) _⟩⟩
  | sleep span next ih => exact ⟨trivial, trivial, ih h _⟩
  | now next ih => exact fun t => ih t (h t) _
  | emit event next ih => exact ⟨trivial, ih h _⟩
  | serve request next ih => exact ⟨trivial, trivial, fun response _ => ih response (h response) _⟩
  | fresh next ih => exact fun n => ih n (h n) _
  | hold call next ih => exact ⟨h.1, ih h.2 _⟩
  | unhold next ih => exact ⟨trivial, ih h _⟩

theorem Makes.keepsFromStart {p : Program α} (h : Makes made owed p) :
    KeepsFromStart handler (.onlyCalls made owed fun _ _ => True) p :=
  ⟨trivial, h.keeps _⟩

/-- What is carried out for a program that makes only some calls is one of those, and so
is what it leaves behind. -/
theorem Makes.of_path {p : Program α} (h : Makes made owed p) {notes : List Note} {s : Stage α}
    (hpath : Path handler ⟨.going p, none⟩ notes s) :
    (∀ call answer, .done call answer ∈ notes → made call) ∧
      ∀ call, .quit (some call) ∈ notes → owed call := by
  have hlawful := (conduct_of_path h.keepsFromStart ((Path.single .resumed).append hpath)).1
  have hbehind : ∀ n ∈ notes, ∃ past, n :: past <:+ notes ++ [.resumed] := by
    intro n hn
    rcases List.append_of_mem hn with ⟨newer, older, rfl⟩
    exact ⟨older ++ [.resumed], newer, by simp⟩
  constructor
  · intro call answer hdone
    rcases hbehind _ hdone with ⟨past, hs⟩
    rcases (hlawful _ _ hs).1 with ⟨older, rfl⟩
    exact (hlawful _ _ ((List.suffix_cons _ _).trans hs)).2 trivial
  · intro call hquit
    rcases hbehind _ hquit with ⟨past, hs⟩
    have howed : owedBy past = some call := (hlawful _ _ hs).1.symm
    rcases owedBy_eq_some howed with ⟨newer, older, rfl, _⟩
    have hheld : .held call :: older <:+ newer ++ .held call :: older := List.suffix_append _ _
    exact (hlawful _ _ (hheld.trans ((List.suffix_cons _ _).trans hs))).2 trivial

end

end Turnstile.Run
