import Turnstile.Proofs.Store.PlainHistory

/-!
# When room comes back

Since the last admission, a rate window holds the same stamps until it expires:
as many as the limit at most, and one that is not after that admission.  A
request that is refused prunes nothing, as the limit would be reached no longer
if it did.

So a refused request is told of the oldest stamp of a full window, and as long
as nobody else is admitted there is room again once that stamp lies before the
beginning of the window.  The window has its beginning with it: when the stamp
is just as old as the window is long, there is no room yet.

Main results:

- Theorem `Ran.full_of_refused`: a request that is refused leaves a full window
  behind, and is told of its oldest stamp.
- Theorem `FullFrom.admitted_iff`: when the next request is admitted.
-/

namespace Turnstile.Store

variable {key : String} {offset : Int} {window ttl : Span} {limit : Nat} {deeds : List Deed}
  {s s' : LocalStore} {now later : Nat} {fresh : Token} {stamps : List Int}

/-! ## Since the last admission -/

/-- What the store keeps under a key since the last admission, which was made
when the monotonic clock showed `admitted`. -/
structure SinceAdmission (key : String) (offset : Int) (limit : Nat) (ttl : Span) (s : LocalStore)
    (now admitted : Nat) (stamps : List Int) : Prop where
  before : admitted ≤ now
  few : stamps.length ≤ limit
  sorted : stamps.Pairwise (· < ·)
  ranged : ∀ x ∈ stamps, Timestamp.minStamp ≤ x
  taken : offset + admitted ∈ stamps
  kept : ∀ later, now ≤ later →
    s.stampsAt later key = if admitted + ttl.nanos ≤ later then [] else stamps

/-- Nobody was admitted under the key, or the store keeps what it did since the
last admission. -/
def Tracks (key : String) (offset : Int) (limit : Nat) (ttl : Span) (s : LocalStore) (now : Nat) :
    Prop :=
  (∀ later, now ≤ later → s.stampsAt later key = []) ∨
    ∃ admitted stamps, SinceAdmission key offset limit ttl s now admitted stamps

namespace SinceAdmission

variable {admitted : Nat}

/-- A store whose windows look the same later on keeps the same. -/
theorem of_stampsAt_eq (h : SinceAdmission key offset limit ttl s now admitted stamps)
    (hle : now ≤ later) (heq : ∀ t, later ≤ t → s'.stampsAt t key = s.stampsAt t key) :
    SinceAdmission key offset limit ttl s' later admitted stamps where
  before := Nat.le_trans h.before hle
  few := h.few
  sorted := h.sorted
  ranged := h.ranged
  taken := h.taken
  kept t ht := by rw [heq t ht, h.kept t (Nat.le_trans hle ht)]

/-- The oldest stamp is not after the last admission. -/
theorem head_le (h : SinceAdmission key offset limit ttl s now admitted stamps) {oldest : Int}
    (hhead : stamps.head? = some oldest) : oldest ≤ offset + admitted := by
  cases stamps with
  | nil => exact nomatch hhead
  | cons first rest =>
      have hfirst : first = oldest := Option.some.inj hhead
      subst hfirst
      rcases List.mem_cons.1 h.taken with heq | hmem
      · exact Int.le_of_eq heq.symm
      · exact Int.le_of_lt (List.rel_of_pairwise_cons h.sorted hmem)

/-- The oldest stamp is the least. -/
theorem head_least (h : SinceAdmission key offset limit ttl s now admitted stamps) {oldest : Int}
    (hhead : stamps.head? = some oldest) : ∀ x ∈ stamps, oldest ≤ x := by
  cases stamps with
  | nil => exact nomatch hhead
  | cons first rest =>
      have hfirst : first = oldest := Option.some.inj hhead
      subst hfirst
      intro x hx
      rcases List.mem_cons.1 hx with rfl | hmem
      · exact Int.le_refl _
      · exact Int.le_of_lt (List.rel_of_pairwise_cons h.sorted hmem)

/-- Where the limit is reached, nothing has expired and nothing is pruned. -/
theorem all_live (h : SinceAdmission key offset limit ttl s now admitted stamps) (hlimit : 0 < limit)
    {start : Int} (hfull : limit ≤ ((s.stampsAt now key).filter (start ≤ ·)).length) :
    stamps.length = limit ∧ (∀ x ∈ stamps, start ≤ x) ∧ s.stampsAt now key = stamps := by
  rw [h.kept now (Nat.le_refl now)] at hfull ⊢
  by_cases hexpired : admitted + ttl.nanos ≤ now
  · simp only [if_pos hexpired, List.filter_nil, List.length_nil] at hfull
    omega
  · rw [if_neg hexpired] at hfull ⊢
    have hfew := h.few
    have hle := List.length_filter_le (start ≤ ·) stamps
    have hall := List.length_filter_eq_length_iff.1 (Nat.le_antisymm hle (Nat.le_trans hfew hfull))
    exact ⟨by omega, fun x hx => of_decide_eq_true (hall x hx), rfl⟩

end SinceAdmission

namespace Tracks

/-- A window is tracked as long as it has the same stamps. -/
theorem of_stampsAt_eq (h : Tracks key offset limit ttl s now) (hle : now ≤ later)
    (heq : ∀ t, later ≤ t → s'.stampsAt t key = s.stampsAt t key) :
    Tracks key offset limit ttl s' later := by
  rcases h with hnone | ⟨admitted, stamps, hsince⟩
  · exact Or.inl fun t ht => (heq t ht).trans (hnone t (Nat.le_trans hle ht))
  · exact Or.inr ⟨admitted, stamps, hsince.of_stampsAt_eq hle heq⟩

/-- The stamps of a window that is tracked are increasing and in range. -/
theorem sorted (h : Tracks key offset limit ttl s now) :
    (s.stampsAt now key).Pairwise (· < ·) ∧ ∀ x ∈ s.stampsAt now key, Timestamp.minStamp ≤ x := by
  rcases h with hnone | ⟨admitted, stamps, hsince⟩
  · rw [hnone now (Nat.le_refl now)]
    simp
  · rw [hsince.kept now (Nat.le_refl now)]
    by_cases hexpired : admitted + ttl.nanos ≤ now
    · simp [if_pos hexpired]
    · rw [if_neg hexpired]
      exact ⟨hsince.sorted, hsince.ranged⟩

end Tracks

/-! ## One request -/

/-- The window under a key is full since the last admission, and `oldest` is its
oldest stamp. -/
def FullFrom (key : String) (offset : Int) (limit : Nat) (ttl : Span) (s : LocalStore) (now : Nat)
    (oldest : Int) : Prop :=
  ∃ admitted stamps, SinceAdmission key offset limit ttl s now admitted stamps ∧
    stamps.length = limit ∧ stamps.head? = some oldest

/-- A window is full as long as it has the same stamps. -/
theorem FullFrom.of_stampsAt_eq {oldest : Int} (h : FullFrom key offset limit ttl s now oldest)
    (hle : now ≤ later) (heq : ∀ t, later ≤ t → s'.stampsAt t key = s.stampsAt t key) :
    FullFrom key offset limit ttl s' later oldest := by
  rcases h with ⟨admitted, stamps, hsince, hfull, hhead⟩
  exact ⟨admitted, stamps, hsince.of_stampsAt_eq hle heq, hfull, hhead⟩

/-- A window that is full is tracked. -/
theorem FullFrom.tracks {oldest : Int} (h : FullFrom key offset limit ttl s now oldest) :
    Tracks key offset limit ttl s now := by
  rcases h with ⟨admitted, stamps, hsince, _, _⟩
  exact Or.inr ⟨admitted, stamps, hsince⟩

/-- An admission begins anew what the store keeps. -/
theorem Tracks.admit (h : Tracks key offset limit ttl s now) {start : Int}
    (hlow : Timestamp.minStamp ≤ offset + now)
    (hroom : ((s.stampsAt now key).filter (start ≤ ·)).length < limit) :
    let live := (s.stampsAt now key).filter (start ≤ ·)
    let kept := RateWindow.insertSorted (RateWindow.firstFree (offset + now) live) live
    SinceAdmission key offset limit ttl
      { s with windows := s.windows.insert key ⟨kept, some (now + ttl.nanos)⟩ } now now kept := by
  dsimp only
  have hsorted := h.sorted.1.filter (start ≤ ·)
  have hranged : ∀ x ∈ (s.stampsAt now key).filter (start ≤ ·), Timestamp.minStamp ≤ x :=
    fun x hx => h.sorted.2 x (List.mem_filter.1 hx).1
  generalize (s.stampsAt now key).filter (start ≤ ·) = live at hsorted hranged hroom ⊢
  have hfree := RateWindow.firstFree_ge (offset + now) live
  refine ⟨Nat.le_refl now, ?_, ?_, ?_, ?_, ?_⟩
  · rw [RateWindow.length_insertSorted]
    exact hroom
  · exact RateWindow.pairwise_insertSorted hsorted (RateWindow.firstFree_not_mem hsorted)
  · intro x hx
    rcases RateWindow.mem_insertSorted.1 hx with rfl | hx
    · exact Int.le_trans hlow hfree
    · exact hranged x hx
  · rcases Int.lt_or_eq_of_le hfree with hlt | heq
    · exact RateWindow.mem_insertSorted.2
        (Or.inr (RateWindow.mem_of_lt_firstFree (Int.le_refl _) hlt))
    · exact RateWindow.mem_insertSorted.2 (Or.inl heq)
  · intro later _
    exact LocalStore.stampsAt_of_admitted s key _ _ later

/-- A request that is refused leaves a full window behind, and is told of its
oldest stamp, which still counts. -/
theorem Tracks.refuse (h : Tracks key offset limit ttl s now) (hlimit : 0 < limit)
    {entry : RateWindow} {start : Int} (hentry : (s.windows.lookup key).getD .empty = entry)
    (hfull : limit ≤ ((s.stampsAt now key).filter (start ≤ ·)).length) :
    let live := (s.stampsAt now key).filter (start ≤ ·)
    ∃ oldest, live.head? = some oldest ∧ start ≤ oldest ∧ oldest ≤ offset + now ∧
      FullFrom key offset limit ttl
        { s with windows := s.windows.insert key ⟨live, entry.expiresAt⟩ } now oldest := by
  dsimp only
  rcases h with hnone | ⟨admitted, stamps, hsince⟩
  · rw [hnone now (Nat.le_refl now)] at hfull
    simp only [List.filter_nil, List.length_nil] at hfull
    omega
  · rcases hsince.all_live hlimit hfull with ⟨hlength, hlive, hstamps⟩
    have hall : stamps.filter (start ≤ ·) = stamps :=
      List.filter_eq_self.2 fun x hx => decide_eq_true (hlive x hx)
    cases hhead : stamps.head? with
    | none =>
        rw [List.head?_eq_none_iff.1 hhead, List.length_nil] at hlength
        omega
    | some oldest =>
        have hbefore := hsince.before
        have hle := hsince.head_le hhead
        refine ⟨oldest, ?_, hlive oldest (List.mem_of_mem_head? hhead), by omega, ?_⟩
        · rw [hstamps, hall, hhead]
        · refine ⟨admitted, stamps, ?_, hlength, hhead⟩
          refine ⟨hbefore, hsince.few, hsince.sorted, hsince.ranged, hsince.taken, ?_⟩
          intro later hlater
          rw [LocalStore.stampsAt_of_refused hlater hentry rfl, hsince.kept later hlater]
          by_cases hexpired : admitted + ttl.nanos ≤ later
          · rw [if_pos hexpired]
            rfl
          · rw [if_neg hexpired]
            exact hall

/-! ## Any number of requests -/

/-- The store keeps track of what was admitted. -/
theorem Ran.tracks (h : Ran deeds s now) (hslides : Slides key offset window limit ttl deeds)
    (hlimit : 0 < limit) : Tracks key offset limit ttl s now := by
  induction h with
  | start now => exact Or.inl fun later _ => rfl
  | elapse _ hlater ih => exact (ih hslides).of_stampsAt_eq hlater fun _ _ => rfl
  | purge hran ih =>
      exact (ih hslides).of_stampsAt_eq (Nat.le_refl _) fun _ ht =>
        LocalStore.stampsAt_purge hran.distinct.windows ht key
  | @perform deeds s now fresh call answer s' hran hfresh hdone ih =>
      have hbefore := ih (hslides.of_suffix (List.suffix_cons _ _))
      by_cases hspares : call.SparesWindow key
      · exact hbefore.of_stampsAt_eq (Nat.le_refl _) fun t _ =>
          LocalStore.stampsAt_of_spares hdone hspares t
      · have hcall : call = .recordInWindow key (offset + now) window limit ttl :=
          hslides.recorded _ List.mem_cons_self hspares
        have hlow : Timestamp.minStamp ≤ offset + now := hslides.ranged _ List.mem_cons_self hspares
        subst hcall
        rcases LocalStore.perform_record_cases hdone with
          ⟨hfull, _, entry, hentry, rfl⟩ | ⟨hroom, stamps, rfl, _, rfl⟩
        · rcases hbefore.refuse hlimit hentry hfull with ⟨_, _, _, _, hfrom⟩
          exact hfrom.tracks
        · exact Or.inr ⟨now, _, hbefore.admit hlow hroom⟩

/-- A request is answered with an outcome. -/
theorem Ran.exists_outcome {t : Nat} {stamp : Int} {answer : Answer} {past : List Deed}
    (h : Ran deeds s now)
    (hd : ⟨t, .recordInWindow key stamp window limit ttl, answer⟩ :: past <:+ deeds) :
    ∃ outcome, answer = .window outcome := by
  rcases h.behind hd with ⟨_, _, _, _, _, hdone⟩
  rcases LocalStore.perform_record_cases hdone with ⟨_, heq, _⟩ | ⟨_, _, _, heq, _⟩
  · exact ⟨_, heq⟩
  · exact ⟨_, heq⟩

/-- A request that is refused leaves a full window behind until somebody else
changes it, and is told of its oldest stamp, which counted at its instant. -/
theorem Ran.full_of_refused {newer past : List Deed} {t : Nat} {outcome : WindowOutcome}
    (h : Ran deeds s now) (hslides : Slides key offset window limit ttl deeds) (hlimit : 0 < limit)
    (hdeeds : deeds = newer ++
      ⟨t, .recordInWindow key (offset + t) window limit ttl, .window outcome⟩ :: past)
    (hrefused : outcome.admitted = false) (hspare : ∀ d ∈ newer, d.call.SparesWindow key) :
    ∃ oldest, outcome.oldest = some oldest ∧ windowStart (offset + t) window ≤ oldest ∧
      oldest ≤ offset + t ∧ FullFrom key offset limit ttl s now oldest := by
  induction h generalizing newer with
  | start now => simp at hdeeds
  | elapse _ hlater ih =>
      rcases ih hslides hdeeds hspare with ⟨oldest, holdest, hstart, hle, hfrom⟩
      exact ⟨oldest, holdest, hstart, hle, hfrom.of_stampsAt_eq hlater fun _ _ => rfl⟩
  | purge hran ih =>
      rcases ih hslides hdeeds hspare with ⟨oldest, holdest, hstart, hle, hfrom⟩
      exact ⟨oldest, holdest, hstart, hle, hfrom.of_stampsAt_eq (Nat.le_refl _) fun _ ht =>
        LocalStore.stampsAt_purge hran.distinct.windows ht key⟩
  | @perform deeds s now fresh call answer s' hran hfresh hdone ih =>
      have hpast := hslides.of_suffix (List.suffix_cons _ _)
      cases newer with
      | nil =>
          rw [List.nil_append, List.cons.injEq, Deed.mk.injEq] at hdeeds
          rcases hdeeds with ⟨⟨rfl, rfl, rfl⟩, rfl⟩
          rcases LocalStore.perform_record_cases hdone with
            ⟨hfull, heq, entry, hentry, rfl⟩ | ⟨_, _, _, heq, _⟩
          · rw [Answer.window.injEq] at heq
            subst heq
            exact (hran.tracks hpast hlimit).refuse hlimit hentry hfull
          · rw [Answer.window.injEq] at heq
            rw [heq] at hrefused
            exact nomatch hrefused
      | cons d newer =>
          rw [List.cons_append, List.cons.injEq] at hdeeds
          rcases hdeeds with ⟨rfl, hdeeds⟩
          have hspares : call.SparesWindow key := hspare _ List.mem_cons_self
          rcases ih hpast hdeeds fun d hd => hspare d (List.mem_cons_of_mem _ hd) with
            ⟨oldest, holdest, hstart, hle, hfrom⟩
          exact ⟨oldest, holdest, hstart, hle, hfrom.of_stampsAt_eq (Nat.le_refl _) fun t _ =>
            LocalStore.stampsAt_of_spares hdone hspares t⟩

/-! ## The next request -/

/-- While a full window has not been changed, a request is answered, and it is
admitted if the oldest stamp is older than the window is long. -/
theorem FullFrom.admitted_iff {oldest : Int} (h : FullFrom key offset limit ttl s now oldest)
    (hwindow : (window.nanos : Int) ≤ Timestamp.maxStamp) (hlong : window.nanos < ttl.nanos)
    (hhigh : offset + now + limit ≤ Timestamp.maxStamp) (hend : now + ttl.nanos < Moment.bound)
    (hlimit : 0 < limit) (fresh : Token) :
    ∃ outcome s', s.perform now fresh (.recordInWindow key (offset + now) window limit ttl) =
        .ok (.window outcome, s') ∧
      (outcome.admitted = true ↔ oldest + window.nanos < offset + now) := by
  rcases h with ⟨admitted, stamps, hsince, hlength, hhead⟩
  rcases s.perform_record_ok fresh key window hhigh hend with ⟨answer, s', hdone⟩
  have hranged := hsince.ranged oldest (List.mem_of_mem_head? hhead)
  rcases LocalStore.perform_record_cases hdone with
    ⟨hfull, rfl, _⟩ | ⟨hroom, stamps', _, rfl, _⟩
  · refine ⟨_, s', hdone, ?_⟩
    have hlive := (hsince.all_live hlimit hfull).2.1 oldest (List.mem_of_mem_head? hhead)
    unfold windowStart at hlive
    simp only [Bool.false_eq_true, false_iff]
    omega
  · refine ⟨_, s', hdone, ?_⟩
    simp only [true_iff]
    refine Int.not_le.1 fun hyoung => ?_
    -- Neither has the window expired nor is a stamp too old for it.
    have hle := hsince.head_le hhead
    have hkept : ¬ admitted + ttl.nanos ≤ now := by omega
    have hall : stamps.filter (windowStart (offset + now) window ≤ ·) = stamps := by
      refine List.filter_eq_self.2 fun x hx => decide_eq_true ?_
      have hleast := hsince.head_least hhead x hx
      unfold windowStart
      omega
    rw [hsince.kept now (Nat.le_refl now), if_neg hkept, hall] at hroom
    omega

end Turnstile.Store
