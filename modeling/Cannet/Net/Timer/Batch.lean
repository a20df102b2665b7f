import Cannet.Net.Timer.Calls

/-!
# The timers a batch runs

`Batch` says what one `handleRead` at `now` does, in terms of the queue before it and of what the
callbacks do. `handleRead_spec` follows the call through its loops, and `Handled.batch` reads
`Batch` off what it leaves behind.
-/

namespace Cannet.Net

open Foundations

namespace TimerManager

/-! ## What a batch consists of -/

section Parts

variable (s : TimerManager) (now : Int64) (callback : ℕ → List TimerAction)

/-- The timers `getExpired` returns. -/
def expired : List ℕ :=
  (s.timers.takeWhile (isDue s.timer now)).filter fun t => !(s.timer t).isDelete

/-- The timers it leaves in the queue. -/
def waiting : List ℕ := s.timers.dropWhile (isDue s.timer now)

/-- The timers that have their turn. -/
def ran : List ℕ := turns (cancelsOf callback) (s.expired now) fun t => (s.timer t).isDelete

/-- The timers the callbacks add. -/
def added : List ℕ := (s.ran now callback).flatMap (addsOf callback)

/-- Whether a timer is marked when the callbacks are through. -/
def marked (t : ℕ) : Bool :=
  (s.timer t).isDelete || decide (t ∈ (s.ran now callback).flatMap (cancelsOf callback))

/-- The repeating timers that go back to the queue. -/
def back : List ℕ :=
  (s.expired now).filter fun t => (s.timer t).isRepeat && !s.marked now callback t

theorem expired_sublist : (s.expired now).Sublist s.timers :=
  List.filter_sublist.trans (List.takeWhile_sublist _)

theorem waiting_sublist : (s.waiting now).Sublist s.timers := List.dropWhile_sublist _

variable {s now callback}

theorem mem_addsOf {key t : ℕ} :
    t ∈ addsOf callback key ↔ ∃ clock, .addTimerInLoop t clock ∈ callback key := by
  rw [addsOf, List.mem_flatMap]
  constructor
  · rintro ⟨a, ha, ht⟩
    cases a with
    | addTimerInLoop seq clock =>
      obtain rfl := List.mem_singleton.1 ht
      exact ⟨clock, ha⟩
    | cancelInLoop seq => exact absurd ht List.not_mem_nil
  · rintro ⟨clock, ha⟩
    exact ⟨_, ha, List.mem_singleton.2 rfl⟩

theorem mem_cancelsOf {key t : ℕ} :
    t ∈ cancelsOf callback key ↔ .cancelInLoop t ∈ callback key := by
  rw [cancelsOf, List.mem_flatMap]
  constructor
  · rintro ⟨a, ha, ht⟩
    cases a with
    | addTimerInLoop seq clock => exact absurd ht List.not_mem_nil
    | cancelInLoop seq =>
      obtain rfl := List.mem_singleton.1 ht
      exact ha
  · intro ha
    exact ⟨_, ha, List.mem_singleton.2 rfl⟩

theorem marked_eq_true {t : ℕ} :
    s.marked now callback t = true ↔ (s.timer t).isDelete = true ∨
      ∃ b ∈ s.ran now callback, .cancelInLoop t ∈ callback b := by
  simp only [marked, Bool.or_eq_true, decide_eq_true_eq, List.mem_flatMap, mem_cancelsOf]

/-- In a sorted queue the timers that are due come first. -/
theorem due_first (hs : TimerSorted s.timer s.timers) :
    s.timers.Pairwise fun a b => isDue s.timer now b = true → isDue s.timer now a = true := by
  refine List.Pairwise.imp (fun {a b} hab hb => ?_) hs
  have hle := timerCmp_eq_false.1 hab
  rw [timerKey, timerKey, Prod.Lex.toLex_le_toLex] at hle
  rw [isDue, decide_eq_true_eq, Int64.le_iff_toInt_le] at hb ⊢
  omega

theorem mem_expired (hs : TimerSorted s.timer s.timers) {t : ℕ} :
    t ∈ s.expired now ↔
      t ∈ s.timers ∧ (s.timer t).expiration ≤ now ∧ (s.timer t).isDelete = false := by
  rw [expired, List.mem_filter, mem_takeWhile_iff (due_first hs), isDue, decide_eq_true_eq,
    Bool.not_eq_true', and_assoc]

theorem mem_waiting (hs : TimerSorted s.timer s.timers) {t : ℕ} :
    t ∈ s.waiting now ↔ t ∈ s.timers ∧ now < (s.timer t).expiration := by
  rw [waiting, mem_dropWhile_iff (due_first hs), isDue, decide_eq_false_iff_not,
    Int64.not_le]

theorem mem_back (hs : TimerSorted s.timer s.timers) {t : ℕ} :
    t ∈ s.back now callback ↔ (t ∈ s.timers ∧ (s.timer t).expiration ≤ now ∧
      (s.timer t).isRepeat = true) ∧ s.marked now callback t = false := by
  rw [back, List.mem_filter, mem_expired hs, Bool.and_eq_true, Bool.not_eq_true']
  constructor
  · rintro ⟨⟨hmem, hdue, -⟩, hrepeat, hmark⟩
    exact ⟨⟨hmem, hdue, hrepeat⟩, hmark⟩
  · rintro ⟨⟨hmem, hdue, hrepeat⟩, hmark⟩
    exact ⟨⟨hmem, hdue, (Bool.or_eq_false_iff.1 hmark).1⟩, hrepeat, hmark⟩

/-- An expired timer has left the queue, and nothing adds it again. -/
theorem not_mem_of_mem_expired (hs : TimerSorted s.timer s.timers)
    (hdisj : (s.added now callback).Disjoint s.timers) {t : ℕ} (ht : t ∈ s.expired now) :
    t ∉ s.added now callback ++ s.waiting now := by
  intro hmem
  obtain ⟨htmem, hdue, -⟩ := (mem_expired hs).1 ht
  rcases List.mem_append.1 hmem with hadd | hwait
  · exact hdisj hadd htmem
  · exact Int64.not_le.2 ((mem_waiting hs).1 hwait).2 hdue

/-- A queue of different timers is strictly ordered. -/
theorem timers_strict (hs : TimerSorted s.timer s.timers) (hn : s.timers.Nodup) :
    s.timers.Pairwise fun a b => timerKey s.timer a < timerKey s.timer b := by
  refine (List.Pairwise.and hs hn).imp fun {a b} hab => ?_
  refine lt_of_le_of_ne (timerCmp_eq_false.1 hab.1) fun heq => hab.2 ?_
  exact congrArg (fun k : ℤ ×ₗ ℕ => (ofLex k).2) heq

theorem ran_strict (hs : TimerSorted s.timer s.timers) (hn : s.timers.Nodup) :
    (s.ran now callback).Pairwise fun a b => timerKey s.timer a < timerKey s.timer b :=
  (timers_strict hs hn).sublist ((turns_sublist _ _ _).trans (s.expired_sublist now))

/-- Who has a turn, in terms of the queue. -/
theorem mem_ran (hs : TimerSorted s.timer s.timers) (hn : s.timers.Nodup) {t : ℕ} :
    t ∈ s.ran now callback ↔ t ∈ s.timers ∧ (s.timer t).expiration ≤ now ∧
      (s.timer t).isDelete = false ∧ ∀ b ∈ s.ran now callback,
        timerKey s.timer b < timerKey s.timer t → .cancelInLoop t ∉ callback b := by
  have hstrict := (timers_strict hs hn).sublist (s.expired_sublist now)
  have h := mem_turns (cancelsOf callback) (fun a b => lt_asymm) hstrict
    (fun t => (s.timer t).isDelete) t
  rw [mem_expired hs] at h
  simp only [mem_cancelsOf] at h
  rw [ran]
  constructor
  · intro ht
    obtain ⟨⟨hmem, hdue, hlive⟩, -, hrest⟩ := h.1 ht
    exact ⟨hmem, hdue, hlive, hrest⟩
  · rintro ⟨hmem, hdue, hlive, hrest⟩
    exact h.2 ⟨⟨hmem, hdue, hlive⟩, hlive, hrest⟩

end Parts

/-! ## One `handleRead` -/

/-- What is left of a call of `handleRead` that finds the queue sorted and without repetition,
and whose callbacks add new timers only. -/
structure Handled (s s' : TimerManager) (now resetClock : Int64)
    (callback : ℕ → List TimerAction) : Prop where
  timer : ∀ t, s'.timer t =
    { s.timer t with
      expiration := if t ∈ s.back now callback then now + (s.timer t).interval
        else (s.timer t).expiration
      isDelete := s.marked now callback t }
  timers : ∃ queue : List ℕ,
    queue.Perm (s.back now callback ++ (s.added now callback ++ s.waiting now)) ∧
    s'.timers = queue.dropWhile (s.marked now callback)
  sorted : TimerSorted s'.timer s'.timers
  armed : ∀ top rest, s'.timers = top :: rest →
    ∃ armed, s'.timerFd = rearmed (s'.timer top).expiration resetClock armed

theorem handleRead_spec (s : TimerManager) (readClock now resetClock : Int64)
    (callback : ℕ → List TimerAction) :
    ∃ s', handleRead readClock now resetClock callback s =
        ⟨.ok (), s', (s.ran now callback).flatMap (turnEffects callback)⟩ ∧
      (TimerSorted s.timer s.timers → (s.added now callback ++ s.timers).Nodup →
        Handled s s' now resetClock callback) := by
  let s₀ : TimerManager :=
    { s with timerFd := s.timerFd.filter fun deadline => readClock.toInt < deadline }
  have hexpired : getExpired now s₀.timers s₀ = ⟨.ok (s.expired now),
      { s₀ with timers := s.waiting now }, []⟩ := s₀.getExpired_spec now s₀.timers rfl
  obtain ⟨s₁, hrun, hafter⟩ :=
    ({ s₀ with timers := s.waiting now } : TimerManager).runExpired_spec callback (s.expired now)
  obtain ⟨s₂, hrestart, hrest⟩ := s₁.restartExpired_spec now (s.expired now)
  obtain ⟨armed, hprune, harmed⟩ := s₂.pruneAndRearm_spec resetClock s₂.timers rfl
  have hread : handleRead readClock now resetClock callback s = ⟨.ok (),
      { s₂ with timers := s₂.timers.dropWhile fun t => (s₂.timer t).isDelete, timerFd := armed },
      (s.ran now callback).flatMap (turnEffects callback)⟩ := by
    rw [handleRead, readTimerFd, Act.modify_bind, Act.get_bind, Act.bind_ok hexpired,
      Act.bind_ok hrun, reset, Act.bind_ok hrestart, Act.get_bind, hprune]
    simp only [Outcome.after_mk, List.append_nil, List.nil_append]
    rfl
  refine ⟨_, hread, fun hs hnodup => ?_⟩
  obtain ⟨-, hn, hdisj⟩ := List.nodup_append'.1 hnodup
  have htimer₁ : ∀ t, s₁.timer t = { s.timer t with isDelete := s.marked now callback t } :=
    hafter.timer
  have htimers₁ : s₁.timers.Perm (s.added now callback ++ s.waiting now) := hafter.timers
  have hr := hrest (hn.sublist (s.expired_sublist now)) fun t ht hmem =>
    not_mem_of_mem_expired hs hdisj ht (htimers₁.subset hmem)
  have hback : (s.expired now).filter (goesBack s₁.timer) = s.back now callback :=
    List.filter_congr fun t _ => by
      rw [goesBack, htimer₁]
      rfl
  have htimer₂ : ∀ t, s₂.timer t =
      { s.timer t with
        expiration := if t ∈ s.back now callback then now + (s.timer t).interval
          else (s.timer t).expiration
        isDelete := s.marked now callback t } := fun t => by
    rw [hr.timer, htimer₁, hback]
    split <;> rfl
  have hdel₂ : (fun t => (s₂.timer t).isDelete) = s.marked now callback := by
    funext t
    rw [htimer₂]
  refine ⟨htimer₂, ⟨s₂.timers, ?_, ?_⟩, ?_, fun top rest htop => ⟨_, harmed top rest htop⟩⟩
  · rw [← hback]
    exact hr.timers.trans (htimers₁.append_left _)
  · show s₂.timers.dropWhile _ = _
    rw [hdel₂]
  · have hwaiting : TimerSorted s.timer (s.waiting now) := hs.sublist (s.waiting_sublist now)
    exact (hr.sorted (hafter.sorted hwaiting)).sublist (List.dropWhile_sublist _)

namespace Handled

variable {s s' : TimerManager} {now resetClock : Int64} {callback : ℕ → List TimerAction}

/-- No timer is in the queue twice. -/
theorem nodup (h : Handled s s' now resetClock callback) (hs : TimerSorted s.timer s.timers)
    (hnodup : (s.added now callback ++ s.timers).Nodup) : s'.timers.Nodup := by
  obtain ⟨hadded, hn, hdisj⟩ := List.nodup_append'.1 hnodup
  obtain ⟨queue, hqueue, htimers⟩ := h.timers
  have hwaiting : (s.added now callback ++ s.waiting now).Nodup :=
    List.nodup_append'.2 ⟨hadded, hn.sublist (s.waiting_sublist now),
      fun t ha hw => hdisj ha ((mem_waiting hs).1 hw).1⟩
  have hback : (s.back now callback).Disjoint (s.added now callback ++ s.waiting now) :=
    fun t hb => not_mem_of_mem_expired hs hdisj (List.mem_of_mem_filter hb)
  rw [htimers]
  refine (hqueue.nodup_iff.2 ?_).sublist (List.dropWhile_sublist _)
  refine List.nodup_append'.2 ⟨?_, hwaiting, hback⟩
  exact (hn.sublist (s.expired_sublist now)).sublist List.filter_sublist

/-- The timers in the queue that are not marked. -/
theorem mem_timers (h : Handled s s' now resetClock callback) {t : ℕ}
    (hlive : s.marked now callback t = false) : t ∈ s'.timers ↔
      t ∈ s.back now callback ∨ t ∈ s.added now callback ∨ t ∈ s.waiting now := by
  obtain ⟨queue, hqueue, htimers⟩ := h.timers
  rw [htimers, mem_dropWhile_of_not hlive, hqueue.mem_iff, List.mem_append, List.mem_append]

end Handled

/-- **The semantics of a batch**: what a `handleRead` at `now` does to the timers of `s` when the
callbacks of those in `ran`, in that order, are the ones it runs. The next expiration of a repeating
timer is a sum of `int64_t`s. -/
structure Batch (s s' : TimerManager) (now : Int64) (callback : ℕ → List TimerAction)
    (ran : List ℕ) : Prop where
  order : ran.Pairwise fun a b => timerKey s.timer a < timerKey s.timer b
  runs : ∀ t, t ∈ ran ↔ t ∈ s.timers ∧ (s.timer t).expiration ≤ now ∧
    (s.timer t).isDelete = false ∧
    ∀ b ∈ ran, timerKey s.timer b < timerKey s.timer t → .cancelInLoop t ∉ callback b
  nodup : s'.timers.Nodup
  isDelete : ∀ t, (s'.timer t).isDelete = true ↔
    (s.timer t).isDelete = true ∨ ∃ b ∈ ran, .cancelInLoop t ∈ callback b
  queued : ∀ t, (s'.timer t).isDelete = false → (t ∈ s'.timers ↔
    (t ∈ s.timers ∧ now < (s.timer t).expiration) ∨
    (∃ b ∈ ran, ∃ clock, .addTimerInLoop t clock ∈ callback b) ∨
    (t ∈ s.timers ∧ (s.timer t).expiration ≤ now ∧ (s.timer t).isRepeat = true))
  expiration : ∀ t ∈ s'.timers, (s'.timer t).isDelete = false → (s'.timer t).expiration =
    if t ∈ s.timers ∧ (s.timer t).expiration ≤ now then now + (s.timer t).interval
    else (s.timer t).expiration

theorem Handled.batch {s s' : TimerManager} {now resetClock : Int64}
    {callback : ℕ → List TimerAction} (h : Handled s s' now resetClock callback)
    (hs : TimerSorted s.timer s.timers) (hnodup : (s.added now callback ++ s.timers).Nodup) :
    Batch s s' now callback (s.ran now callback) := by
  obtain ⟨-, hn, hdisj⟩ := List.nodup_append'.1 hnodup
  have hmarked : ∀ t, (s'.timer t).isDelete = s.marked now callback t := fun t => by
    rw [h.timer]
  have hadded : ∀ t, t ∈ s.added now callback ↔
      ∃ b ∈ s.ran now callback, ∃ clock, .addTimerInLoop t clock ∈ callback b := fun t => by
    simp only [added, List.mem_flatMap, mem_addsOf]
  have hmem : ∀ t, s.marked now callback t = false → (t ∈ s'.timers ↔
      (t ∈ s.timers ∧ now < (s.timer t).expiration) ∨ t ∈ s.added now callback ∨
      (t ∈ s.timers ∧ (s.timer t).expiration ≤ now ∧ (s.timer t).isRepeat = true)) := by
    intro t hlive
    rw [h.mem_timers hlive, mem_back hs, mem_waiting hs]
    simp only [hlive, and_true]
    tauto
  refine ⟨ran_strict hs hn, fun t => mem_ran hs hn, h.nodup hs hnodup, ?_, ?_, ?_⟩
  · intro t
    rw [hmarked, marked_eq_true]
  · intro t hlive
    rw [hmem t (hmarked t ▸ hlive), hadded]
  · intro t ht hlive
    rw [hmarked] at hlive
    have hback : t ∈ s.back now callback ↔ t ∈ s.timers ∧ (s.timer t).expiration ≤ now := by
      rw [mem_back hs]
      constructor
      · rintro ⟨⟨htmem, hdue, -⟩, -⟩
        exact ⟨htmem, hdue⟩
      · rintro ⟨htmem, hdue⟩
        refine ⟨⟨htmem, hdue, ?_⟩, hlive⟩
        rcases (hmem t hlive).1 ht with ⟨-, hlate⟩ | ha | ⟨-, -, hrepeat⟩
        · exact absurd hdue (Int64.not_le.2 hlate)
        · exact absurd htmem (hdisj ha)
        · exact hrepeat
    rw [h.timer]
    simp only [hback]

end TimerManager

end Cannet.Net
