import Cannet.Foundations.Batch
import Cannet.Net.TimerManager
import Mathlib.Data.Prod.Lex

/-!
# What the calls on the timers do

The callbacks of a batch add timers and mark timers as deleted; `After` says how the queue looks
when some of both were done. `handleRead` is followed through its loops: the expired timers are
taken from the queue, those not deleted by then have their turn (`turns`), the repeating ones go
back, and deleted timers are dropped from the top.
-/

namespace Cannet.Net

open Foundations

theorem timerCmp_congr {f g : ℕ → Timer} (h : ∀ t, (f t).expiration = (g t).expiration) :
    TimerCmp f = TimerCmp g := by
  funext a b
  rw [TimerCmp, TimerCmp, h a, h b]

/-- The order of the queue: by expiration, then by sequence number. -/
def timerKey (timer : ℕ → Timer) (seq : ℕ) : ℤ ×ₗ ℕ := toLex ((timer seq).expiration.toInt, seq)

theorem timerCmp_eq_false {timer : ℕ → Timer} {a b : ℕ} :
    TimerCmp timer a b = false ↔ timerKey timer a ≤ timerKey timer b := by
  rw [timerKey, timerKey, Prod.Lex.toLex_le_toLex, TimerCmp]
  split
  · rename_i h
    simp [h]
  · rename_i h
    rw [← Int64.toInt_inj] at h
    rw [decide_eq_false_iff_not, Int64.lt_iff_toInt_lt]
    omega

instance (timer : ℕ → Timer) : IsTrans ℕ fun a b => TimerCmp timer a b = false :=
  ⟨fun _ _ _ hab hbc =>
    timerCmp_eq_false.2 (le_trans (timerCmp_eq_false.1 hab) (timerCmp_eq_false.1 hbc))⟩

instance (timer : ℕ → Timer) : Std.Total fun a b => TimerCmp timer a b = false :=
  ⟨fun a b => by
    rw [timerCmp_eq_false, timerCmp_eq_false]
    exact le_total _ _⟩

/-- In the order of the queue. -/
def TimerSorted (timer : ℕ → Timer) (timers : List ℕ) : Prop :=
  timers.Pairwise fun a b => TimerCmp timer a b = false

namespace TimerAction

/-- The timer a callback adds. -/
def adds : TimerAction → List ℕ
  | addTimerInLoop seq _ => [seq]
  | cancelInLoop _ => []

/-- The timer a callback cancels. -/
def cancels : TimerAction → List ℕ
  | addTimerInLoop _ _ => []
  | cancelInLoop seq => [seq]

def effect : TimerAction → TimerEffect
  | addTimerInLoop seq _ => .addTimerInLoop seq
  | cancelInLoop seq => .cancelInLoop seq

end TimerAction

/-- The queue after the timers in `added` were inserted and those in `cancelled` were marked. -/
structure After (s s' : TimerManager) (added cancelled : List ℕ) : Prop where
  timer : ∀ t, s'.timer t =
    { s.timer t with isDelete := (s.timer t).isDelete || decide (t ∈ cancelled) }
  timers : s'.timers.Perm (added ++ s.timers)
  sorted : TimerSorted s.timer s.timers → TimerSorted s'.timer s'.timers

namespace After

variable {s s' s'' : TimerManager} {added added' cancelled cancelled' : List ℕ}

theorem refl (s : TimerManager) : After s s [] [] where
  timer t := by simp
  timers := .refl _
  sorted h := h

theorem trans (h : After s s' added cancelled) (h' : After s' s'' added' cancelled') :
    After s s'' (added ++ added') (cancelled ++ cancelled') where
  timer t := by
    rw [h'.timer, h.timer]
    simp [Bool.or_assoc]
  timers := by
    refine h'.timers.trans ((h.timers.append_left added').trans ?_)
    rw [← List.append_assoc]
    exact List.perm_append_comm.append_right _
  sorted hs := h'.sorted (h.sorted hs)

end After

namespace TimerManager

variable (s : TimerManager)

/-- The arming `resetTimerFd` asks for. -/
def rearmed (expiration clock : Int64) (armed : Option ℤ) : Option ℤ :=
  timerfdSettime clock ((expiration - clock) / 1000000000) ((expiration - clock) % 1000000000)
    armed

theorem resetTimerFd_apply (expiration clock : Int64) :
    resetTimerFd expiration clock s =
      ⟨.ok (), { s with timerFd := rearmed expiration clock s.timerFd }, []⟩ := rfl

/-- Whether `insert` says that the earliest expiration has changed. -/
def earliestChanged (seq : ℕ) : Bool :=
  match s.timers with
  | top :: _ => (s.timer seq).expiration < (s.timer top).expiration
  | [] => true

theorem insert_apply (seq : ℕ) :
    insert seq s = ⟨.ok (s.earliestChanged seq), s.push seq, []⟩ := by
  rw [insert, Act.get_bind, earliestChanged]
  cases s.timers <;> rfl

theorem push_perm (seq : ℕ) : (s.push seq).timers.Perm (seq :: s.timers) :=
  List.perm_orderedInsert _ _ _

theorem push_sorted (seq : ℕ) (h : TimerSorted s.timer s.timers) :
    TimerSorted (s.push seq).timer (s.push seq).timers :=
  List.Pairwise.orderedInsert seq _ h

theorem addTimerInLoop_apply (seq : ℕ) (clock : Int64) :
    addTimerInLoop seq clock s = ⟨.ok (),
      { s.push seq with
        timerFd := if s.earliestChanged seq then rearmed (s.timer seq).expiration clock s.timerFd
          else s.timerFd }, [.addTimerInLoop seq]⟩ := by
  rw [addTimerInLoop, Act.emit_bind, Act.bind_ok (s.insert_apply seq)]
  cases s.earliestChanged seq <;> rfl

theorem addTimerInLoop_spec (seq : ℕ) (clock : Int64) :
    ∃ s', addTimerInLoop seq clock s = ⟨.ok (), s', [.addTimerInLoop seq]⟩ ∧
      After s s' [seq] [] := by
  refine ⟨_, s.addTimerInLoop_apply seq clock, fun t => ?_, s.push_perm seq, s.push_sorted seq⟩
  simp [push]

theorem cancelInLoop_spec (seq : ℕ) :
    ∃ s', cancelInLoop seq s = ⟨.ok (), s', [.cancelInLoop seq]⟩ ∧ After s s' [] [seq] := by
  refine ⟨s.setTimer seq (Timer.setDelete true), rfl, ?_, .refl _, ?_⟩
  · intro t
    by_cases h : t = seq <;> simp [setTimer, Timer.setDelete, h]
  · intro hs
    have hcmp : TimerCmp (s.setTimer seq (Timer.setDelete true)).timer = TimerCmp s.timer := by
      refine timerCmp_congr fun t => ?_
      by_cases h : t = seq <;> simp [setTimer, Timer.setDelete, h]
    rw [TimerSorted, hcmp]
    exact hs

theorem act_spec (a : TimerAction) :
    ∃ s', act a s = ⟨.ok (), s', [a.effect]⟩ ∧ After s s' a.adds a.cancels := by
  cases a with
  | addTimerInLoop seq clock => exact s.addTimerInLoop_spec seq clock
  | cancelInLoop seq => exact s.cancelInLoop_spec seq

theorem forM_act_spec (acts : List TimerAction) :
    ∃ s', acts.forM act s = ⟨.ok (), s', acts.map TimerAction.effect⟩ ∧
      After s s' (acts.flatMap TimerAction.adds) (acts.flatMap TimerAction.cancels) := by
  induction acts generalizing s with
  | nil => exact ⟨s, rfl, .refl s⟩
  | cons a acts ih =>
    obtain ⟨s₁, h₁, ha₁⟩ := s.act_spec a
    obtain ⟨s₂, h₂, ha₂⟩ := ih s₁
    refine ⟨s₂, ?_, by simpa using ha₁.trans ha₂⟩
    rw [Act.forM_cons, Act.bind_ok h₁, h₂]
    rfl

/-! ## A batch -/

/-- What the callback of `key` adds. -/
def addsOf (callback : ℕ → List TimerAction) (key : ℕ) : List ℕ :=
  (callback key).flatMap TimerAction.adds

/-- What the callback of `key` cancels. -/
def cancelsOf (callback : ℕ → List TimerAction) (key : ℕ) : List ℕ :=
  (callback key).flatMap TimerAction.cancels

/-- A turn in the trace: the callback is run, then what it does. -/
def turnEffects (callback : ℕ → List TimerAction) (key : ℕ) : List TimerEffect :=
  .run key :: (callback key).map TimerAction.effect

theorem run_spec (callback : ℕ → List TimerAction) (key : ℕ) :
    ∃ s', run callback key s = ⟨.ok (), s', turnEffects callback key⟩ ∧
      After s s' (addsOf callback key) (cancelsOf callback key) := by
  obtain ⟨s', h, ha⟩ := s.forM_act_spec (callback key)
  refine ⟨s', ?_, ha⟩
  rw [run, Act.emit_bind, h]
  rfl

/-- **The batch**: those of the expired timers have their turn that nothing has cancelled before
it. -/
theorem runExpired_spec (callback : ℕ → List TimerAction) (expired : List ℕ) :
    ∃ s', expired.forM (runExpired callback) s =
        ⟨.ok (), s', (turns (cancelsOf callback) expired
          fun t => (s.timer t).isDelete).flatMap (turnEffects callback)⟩ ∧
      After s s'
        ((turns (cancelsOf callback) expired
          fun t => (s.timer t).isDelete).flatMap (addsOf callback))
        ((turns (cancelsOf callback) expired
          fun t => (s.timer t).isDelete).flatMap (cancelsOf callback)) := by
  induction expired generalizing s with
  | nil => exact ⟨s, rfl, .refl s⟩
  | cons key expired ih =>
    rw [Act.forM_cons, turns]
    cases hdel : (s.timer key).isDelete with
    | true =>
      obtain ⟨s', h, ha⟩ := ih s
      refine ⟨s', ?_, by simpa using ha⟩
      have hskip : runExpired callback key s = ⟨.ok (), s, []⟩ := by
        rw [runExpired, Act.get_bind, Act.ite_apply, if_neg (by simp [hdel])]
        rfl
      rw [Act.bind_ok hskip, h]
      rfl
    | false =>
      obtain ⟨s₁, h₁, ha₁⟩ := s.run_spec callback key
      obtain ⟨s₂, h₂, ha₂⟩ := ih s₁
      have hdeleted : (fun t => (s₁.timer t).isDelete) =
          fun t => (s.timer t).isDelete || decide (t ∈ cancelsOf callback key) := by
        funext t
        rw [ha₁.timer]
      rw [hdeleted] at h₂ ha₂
      have hturn : runExpired callback key s = ⟨.ok (), s₁, turnEffects callback key⟩ := by
        rw [runExpired, Act.get_bind, Act.ite_apply, if_pos (by simp [hdel]), h₁]
      refine ⟨s₂, ?_, by simpa using ha₁.trans ha₂⟩
      rw [Act.bind_ok hturn, h₂]
      simp

/-- Whether a timer is due at `now`. -/
def isDue (timer : ℕ → Timer) (now : Int64) (t : ℕ) : Bool := (timer t).expiration ≤ now

theorem getExpired_spec (now : Int64) (l : List ℕ) (h : s.timers = l) :
    getExpired now l s =
      ⟨.ok ((l.takeWhile (isDue s.timer now)).filter fun t => !(s.timer t).isDelete),
        { s with timers := l.dropWhile (isDue s.timer now) }, []⟩ := by
  induction l generalizing s with
  | nil =>
    obtain ⟨timer, timers, armed⟩ := s
    cases h
    rfl
  | cons top rest ih =>
    rw [getExpired, Act.get_bind, Act.ite_apply]
    by_cases hdue : (s.timer top).expiration ≤ now
    · rw [if_pos hdue, Act.modify_bind, Act.bind_ok (ih { s with timers := rest } rfl)]
      have hd : isDue s.timer now top = true := decide_eq_true hdue
      cases hdel : (s.timer top).isDelete <;> simp [hd, hdel]
    · have hd : isDue s.timer now top = false := decide_eq_false hdue
      rw [if_neg hdue, List.takeWhile_cons, List.dropWhile_cons, hd, ← h]
      rfl

theorem timerSorted_congr {f g : ℕ → Timer} {l : List ℕ}
    (h : ∀ t ∈ l, (f t).expiration = (g t).expiration) (hs : TimerSorted f l) :
    TimerSorted g l := by
  refine List.Pairwise.imp_of_mem (fun {a b} ha hb hab => ?_) hs
  rw [TimerCmp, ← h a ha, ← h b hb]
  exact hab

/-- Whether a timer of the batch goes back to the queue. -/
def goesBack (timer : ℕ → Timer) (t : ℕ) : Bool :=
  (timer t).isRepeat && !(timer t).isDelete

/-- The queue when one timer of the batch is back. -/
def restarted (now : Int64) (key : ℕ) : TimerManager :=
  (s.setTimer key (Timer.restart now)).push key

theorem restartExpired_apply (now : Int64) (key : ℕ) :
    restartExpired now key s =
      ⟨.ok (), if goesBack s.timer key then s.restarted now key else s, []⟩ := by
  rw [restartExpired, Act.get_bind, Act.ite_apply]
  cases hback : goesBack s.timer key with
  | false =>
    rw [if_neg]
    · rfl
    · rintro ⟨hrepeat, hdel⟩
      simp [goesBack, hrepeat, hdel] at hback
  | true =>
    rw [if_pos, Act.modify_bind, Act.bind_ok (insert_apply _ key)]
    · rfl
    · simpa [goesBack] using hback

theorem restarted_timer_self (now : Int64) (key : ℕ) :
    (s.restarted now key).timer key = (s.timer key).restart now := if_pos rfl

theorem restarted_timer_of_ne (now : Int64) {key t : ℕ} (h : t ≠ key) :
    (s.restarted now key).timer t = s.timer t := if_neg h

theorem restarted_timers (now : Int64) (key : ℕ) :
    (s.restarted now key).timers.Perm (key :: s.timers) := push_perm _ key

theorem restarted_sorted (now : Int64) {key : ℕ} (hnew : key ∉ s.timers)
    (h : TimerSorted s.timer s.timers) :
    TimerSorted (s.restarted now key).timer (s.restarted now key).timers := by
  apply push_sorted
  apply timerSorted_congr (fun t ht => ?_) h
  have hne : t ≠ key := fun heq => hnew (heq ▸ ht)
  simp [setTimer, hne]

/-- What the first loop of `reset` puts back of a batch without repetition that has left the
queue. -/
structure Restarted (s s' : TimerManager) (now : Int64) (expired : List ℕ) : Prop where
  timer : ∀ t, s'.timer t =
    if t ∈ expired.filter (goesBack s.timer) then (s.timer t).restart now else s.timer t
  timers : s'.timers.Perm (expired.filter (goesBack s.timer) ++ s.timers)
  sorted : TimerSorted s.timer s.timers → TimerSorted s'.timer s'.timers

theorem Restarted.skip {s s' : TimerManager} {now : Int64} {key : ℕ} {expired : List ℕ}
    (h : Restarted s s' now expired) (hback : goesBack s.timer key = false) :
    Restarted s s' now (key :: expired) := by
  have hfilter : (key :: expired).filter (goesBack s.timer) =
      expired.filter (goesBack s.timer) := by
    rw [List.filter_cons, hback, if_neg Bool.false_ne_true]
  exact ⟨hfilter ▸ h.timer, hfilter ▸ h.timers, h.sorted⟩

theorem Restarted.back {s s' : TimerManager} {now : Int64} {key : ℕ} {expired : List ℕ}
    (h : Restarted (s.restarted now key) s' now expired) (hback : goesBack s.timer key = true)
    (hkey : key ∉ expired) (hnew : key ∉ s.timers) : Restarted s s' now (key :: expired) := by
  have hsame : expired.filter (goesBack (s.restarted now key).timer) =
      expired.filter (goesBack s.timer) := by
    refine List.filter_congr fun t ht => ?_
    have hne : t ≠ key := fun heq => hkey (heq ▸ ht)
    rw [goesBack, goesBack, s.restarted_timer_of_ne now hne]
  have hfilter : (key :: expired).filter (goesBack s.timer) =
      key :: expired.filter (goesBack (s.restarted now key).timer) := by
    rw [List.filter_cons, hback, if_pos rfl, hsame]
  refine ⟨fun t => ?_, ?_, fun hs => h.sorted (s.restarted_sorted now hnew hs)⟩
  · rw [h.timer, hfilter]
    by_cases ht : t = key
    · subst ht
      have hnot : t ∉ expired.filter (goesBack (s.restarted now t).timer) := fun hmem =>
        hkey (List.mem_of_mem_filter hmem)
      rw [if_neg hnot, restarted_timer_self, if_pos List.mem_cons_self]
    · simp [s.restarted_timer_of_ne now ht, ht]
  · rw [hfilter]
    exact h.timers.trans (((s.restarted_timers now key).append_left _).trans List.perm_middle)

theorem restartExpired_spec (now : Int64) (expired : List ℕ) :
    ∃ s', expired.forM (restartExpired now) s = ⟨.ok (), s', []⟩ ∧
      (expired.Nodup → (∀ t ∈ expired, t ∉ s.timers) → Restarted s s' now expired) := by
  induction expired generalizing s with
  | nil => exact ⟨s, rfl, fun _ _ => ⟨fun t => by simp, .refl _, id⟩⟩
  | cons key expired ih =>
    have hturn := s.restartExpired_apply now key
    rw [Act.forM_cons]
    cases hback : goesBack s.timer key with
    | false =>
      rw [hback, if_neg Bool.false_ne_true] at hturn
      obtain ⟨s', h, hrest⟩ := ih s
      refine ⟨s', by rw [Act.bind_ok hturn, h]; rfl, fun hnodup hnew => ?_⟩
      have hr := hrest (List.nodup_cons.1 hnodup).2 fun t ht => hnew t (List.mem_cons_of_mem key ht)
      exact hr.skip hback
    | true =>
      rw [hback, if_pos rfl] at hturn
      obtain ⟨s', h, hrest⟩ := ih (s.restarted now key)
      refine ⟨s', by rw [Act.bind_ok hturn, h]; rfl, fun hnodup hnew => ?_⟩
      obtain ⟨hkey, hnodup⟩ := List.nodup_cons.1 hnodup
      have hr := hrest hnodup fun t ht hmem => by
        rcases List.mem_cons.1 ((s.restarted_timers now key).subset hmem) with rfl | hmem
        · exact hkey ht
        · exact hnew t (List.mem_cons_of_mem key ht) hmem
      exact hr.back hback hkey (hnew key List.mem_cons_self)

theorem pruneAndRearm_spec (clock : Int64) (l : List ℕ) (h : s.timers = l) :
    ∃ armed, pruneAndRearm clock l s =
        ⟨.ok (), { s with timers := l.dropWhile fun t => (s.timer t).isDelete, timerFd := armed },
          []⟩ ∧
      ∀ top rest, (l.dropWhile fun t => (s.timer t).isDelete) = top :: rest →
        armed = rearmed (s.timer top).expiration clock s.timerFd := by
  induction l generalizing s with
  | nil =>
    obtain ⟨timer, timers, armed⟩ := s
    cases h
    exact ⟨armed, rfl, fun _ _ heq => by simp at heq⟩
  | cons top rest ih =>
    rw [pruneAndRearm, Act.get_bind, Act.ite_apply, List.dropWhile_cons]
    cases hdel : (s.timer top).isDelete with
    | true =>
      obtain ⟨armed, hprune, harmed⟩ := ih { s with timers := rest } rfl
      rw [if_neg (by simp), Act.modify_bind, hprune]
      exact ⟨armed, rfl, harmed⟩
    | false =>
      rw [if_pos (by simp), resetTimerFd_apply]
      refine ⟨rearmed (s.timer top).expiration clock s.timerFd, by simp [← h],
        fun top' rest' heq => ?_⟩
      simp only [Bool.false_eq_true, if_false, List.cons.injEq] at heq
      rw [heq.1]

end TimerManager

end Cannet.Net
