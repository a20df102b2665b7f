import Cannet.Net.Timer.Runs
import Mathlib.Data.Bool.AllAny

/-!
# Arming the timerfd

`resetTimerFd` hands the kernel the time left until the earliest expiration, a difference of two
`int64_t`s. When that has come already, the kernel refuses a negative time and takes a time of zero
for a request to disarm; and when the difference wraps, the time is not the one left. So the
timerfd is not armed in time for a timer that is due. In the runs in which it is only set to
expirations still ahead, or is readable anyway when it is refused (`Timely`), it is always armed in
time (`armed_of_timely`).
-/

namespace Cannet.Net

open Foundations

/-- Still to come at `clock`, by a time that the `int64_t` holds. -/
def Ahead (expiration clock : Int64) : Prop := clock < expiration ∧ 0 < expiration - clock

instance (expiration clock : Int64) : Decidable (Ahead expiration clock) :=
  inferInstanceAs (Decidable (_ ∧ _))

theorem Ahead.toInt_sub {expiration clock : Int64} (h : Ahead expiration clock) :
    (expiration - clock).toInt = expiration.toInt - clock.toInt := by
  have hlt := Int64.lt_iff_toInt_lt.1 h.1
  have hpos := Int64.lt_iff_toInt_lt.1 h.2
  have hzero : (0 : Int64).toInt = 0 := rfl
  have hclock := clock.le_toInt
  have hexpiration := expiration.toInt_lt
  rw [Int64.toInt_sub, hzero, Int.bmod_def] at hpos
  rw [Int64.toInt_sub, Int.bmod_def]
  omega

namespace TimerManager

/-- What `resetTimerFd` does, in terms of the time it takes to be left. -/
theorem rearmed_apply (expiration clock : Int64) (armed : Option ℤ) :
    rearmed expiration clock armed =
      if expiration - clock < 0 then armed
      else if expiration - clock = 0 then none
      else some (clock.toInt + (expiration - clock).toInt) := by
  rw [rearmed]
  generalize expiration - clock = nsec
  have hsec : (nsec / 1000000000).toInt = nsec.toInt.tdiv 1000000000 :=
    nsec.toInt_div_of_ne_right _ (by decide)
  have hnsec : (nsec % 1000000000).toInt = nsec.toInt.tmod 1000000000 := nsec.toInt_mod _
  have hzero : (0 : Int64).toInt = 0 := rfl
  have hmax : (999999999 : Int64).toInt = 999999999 := rfl
  simp only [timerfdSettime, Int64.lt_iff_toInt_lt, ← Int64.toInt_inj, hsec, hnsec, hzero, hmax]
  rcases le_or_gt 0 nsec.toInt with h | h
  · rw [Int.tdiv_eq_ediv_of_nonneg h, Int.tmod_eq_emod_of_nonneg h, if_neg (by omega),
      if_neg (by omega : ¬nsec.toInt < 0)]
    by_cases hnow : nsec.toInt = 0
    · rw [if_pos hnow, hnow, if_pos (by decide)]
    · rw [if_neg hnow, if_neg (by omega)]
      congr 1
      omega
  · have hneg : nsec.toInt = -(-nsec.toInt) := by omega
    have hpos : 0 ≤ -nsec.toInt := by omega
    rw [if_pos h, hneg, Int.neg_tdiv, Int.neg_tmod, Int.tdiv_eq_ediv_of_nonneg hpos,
      Int.tmod_eq_emod_of_nonneg hpos]
    apply if_pos
    omega

theorem rearmed_of_ahead {expiration clock : Int64} (h : Ahead expiration clock)
    (armed : Option ℤ) : rearmed expiration clock armed = some expiration.toInt := by
  have hneg : ¬expiration - clock < 0 := Int64.not_lt.2 (Int64.le_of_lt h.2)
  have hzero : ¬expiration - clock = 0 := fun heq => Int64.lt_irrefl (heq ▸ h.2)
  rw [rearmed_apply, if_neg hneg, if_neg hzero, h.toInt_sub]
  congr 1
  omega

/-- The kernel refuses a negative time. -/
theorem rearmed_of_neg {expiration clock : Int64} (h : expiration - clock < 0)
    (armed : Option ℤ) : rearmed expiration clock armed = armed := by
  rw [rearmed_apply, if_pos h]

/-- Whether the timerfd is readable at `clock`. -/
def readable (s : TimerManager) (clock : Int64) : Bool :=
  s.timerFd.any fun deadline => deadline ≤ clock.toInt

/-- Armed, at a time `clock`, in time for every timer that is not marked. -/
def ArmedInTime (s : TimerManager) (clock : Int64) : Prop :=
  (∃ t ∈ s.timers, (s.timer t).isDelete = false) →
    ∃ deadline, s.timerFd = some deadline ∧ ∀ t ∈ s.timers, (s.timer t).isDelete = false →
      deadline ≤ max clock.toInt (s.timer t).expiration.toInt

/-- The invariant: armed in time for every timer, marked or not. -/
def ArmedBy (s : TimerManager) (clock : Int64) : Prop :=
  s.timers = [] ∨ ∃ deadline, s.timerFd = some deadline ∧
    ∀ t ∈ s.timers, deadline ≤ max clock.toInt (s.timer t).expiration.toInt

theorem ArmedBy.inTime {s : TimerManager} {clock : Int64} (h : s.ArmedBy clock) :
    s.ArmedInTime clock := by
  rintro ⟨t, ht, -⟩
  rcases h with hnil | ⟨deadline, harmed, hle⟩
  · rw [hnil] at ht
    exact absurd ht List.not_mem_nil
  · exact ⟨deadline, harmed, fun t ht _ => hle t ht⟩

theorem ArmedBy.mono {s : TimerManager} {clock clock' : Int64} (h : s.ArmedBy clock)
    (hle : clock ≤ clock') : s.ArmedBy clock' := by
  rw [Int64.le_iff_toInt_le] at hle
  apply h.imp id
  rintro ⟨deadline, harmed, hdeadline⟩
  refine ⟨deadline, harmed, fun t ht => ?_⟩
  have := hdeadline t ht
  omega

section Left

variable (s : TimerManager) (now : Int64) (callback : ℕ → List TimerAction)

/-- The next expiration of a timer when a batch at `now` is over. -/
def nextExpiration (t : ℕ) : Int64 :=
  if t ∈ s.back now callback then now + (s.timer t).interval else (s.timer t).expiration

/-- The timers of the queue that are not marked when the callbacks are through. -/
def left : List ℕ :=
  (s.back now callback ++ (s.added now callback ++ s.waiting now)).filter
    fun t => !s.marked now callback t

end Left

end TimerManager

/-! ## The clock and the condition -/

/-- The readings of the clock a call takes, in order. -/
def readings (call : TimerCall) : List Int64 :=
  match call.input with
  | .addTimerInLoop _ clock => [clock]
  | .cancelInLoop _ => []
  | .handleRead readClock now resetClock callback =>
    readClock :: now :: ((call.before.ran now callback).flatMap fun key =>
      (callback key).flatMap fun
        | .addTimerInLoop _ clock => [clock]
        | .cancelInLoop _ => []) ++ [resetClock]

/-- The clock does not go back. -/
def Clocked (calls : List TimerCall) (call : TimerCall) : Prop :=
  ((calls ++ [call]).flatMap readings).Pairwise (· ≤ ·)

instance (calls : List TimerCall) (call : TimerCall) : Decidable (Clocked calls call) :=
  inferInstanceAs (Decidable (List.Pairwise _ _))

theorem Clocked.le {calls : List TimerCall} {call : TimerCall} (h : Clocked calls call)
    {r r' : Int64} (hr : r ∈ calls.flatMap readings) (hr' : r' ∈ readings call) : r ≤ r' := by
  rw [Clocked, List.flatMap_append, List.pairwise_append] at h
  exact h.2.2 r hr r' (by simpa using hr')

/-- A timer added as the earliest is ahead, or the time left is negative while the timerfd is
readable; and the earliest of the timers left after a batch is ahead. -/
def Timely (call : TimerCall) : Prop :=
  let s := call.before
  match call.input with
  | .addTimerInLoop seq clock =>
    s.earliestChanged seq = true → Ahead (s.timer seq).expiration clock ∨
      (s.timer seq).expiration - clock < 0 ∧ s.readable clock = true
  | .cancelInLoop _ => True
  | .handleRead _ now resetClock callback =>
    s.left now callback = [] ∨ ∃ t ∈ s.left now callback,
      Ahead (s.nextExpiration now callback t) resetClock ∧
        ∀ u ∈ s.left now callback, s.nextExpiration now callback t ≤ s.nextExpiration now callback u

instance : ∀ call : TimerCall, Decidable (Timely call)
  | ⟨.addTimerInLoop seq clock, s, _⟩ =>
    inferInstanceAs (Decidable (s.earliestChanged seq = true →
      Ahead (s.timer seq).expiration clock ∨
        (s.timer seq).expiration - clock < 0 ∧ s.readable clock = true))
  | ⟨.cancelInLoop _, _, _⟩ => isTrue trivial
  | ⟨.handleRead _ now resetClock callback, s, _⟩ =>
    inferInstanceAs (Decidable (s.left now callback = [] ∨ ∃ t ∈ s.left now callback,
      Ahead (s.nextExpiration now callback t) resetClock ∧
        ∀ u ∈ s.left now callback,
          s.nextExpiration now callback t ≤ s.nextExpiration now callback u))

/-! ## One call -/

namespace TimerManager

theorem le_of_sorted {s : TimerManager} {top : ℕ} {rest : List ℕ}
    (hs : TimerSorted s.timer s.timers) (htop : s.timers = top :: rest) {t : ℕ}
    (ht : t ∈ s.timers) : (s.timer top).expiration ≤ (s.timer t).expiration := by
  rw [htop] at hs ht
  rcases List.mem_cons.1 ht with rfl | ht
  · exact Int64.le_refl _
  · have hle := timerCmp_eq_false.1 ((List.pairwise_cons.1 hs).1 t ht)
    rw [timerKey, timerKey, Prod.Lex.toLex_le_toLex] at hle
    rw [Int64.le_iff_toInt_le]
    omega

/-- A timer that becomes the earliest expires before all that are queued. -/
theorem le_of_earliestChanged {s : TimerManager} {seq : ℕ} (hs : TimerSorted s.timer s.timers)
    (h : s.earliestChanged seq = true) {t : ℕ} (ht : t ∈ s.timers) :
    (s.timer seq).expiration ≤ (s.timer t).expiration := by
  cases htimers : s.timers with
  | nil => exact absurd (htimers ▸ ht) List.not_mem_nil
  | cons top rest =>
    have hlt : (s.timer seq).expiration < (s.timer top).expiration := by
      simpa [earliestChanged, htimers] using h
    exact Int64.le_trans (Int64.le_of_lt hlt) (le_of_sorted hs htimers ht)

theorem armedBy_addTimerInLoop {s : TimerManager} {seq : ℕ} {clock : Int64}
    (hs : TimerSorted s.timer s.timers) (h : s.ArmedBy clock)
    (htimely : Timely (Call.make TimerOp.exec (.addTimerInLoop seq clock) s)) :
    (addTimerInLoop seq clock s).state.ArmedBy clock := by
  rw [addTimerInLoop_apply]
  apply Or.inr
  have hmem : ∀ {P : ℕ → Prop}, P seq → (∀ t ∈ s.timers, P t) →
      ∀ t ∈ (s.push seq).timers, P t := by
    intro P hseq hrest t ht
    rcases List.mem_cons.1 ((s.push_perm seq).subset ht) with rfl | ht
    · exact hseq
    · exact hrest t ht
  cases hearliest : s.earliestChanged seq with
  | true =>
    rcases htimely hearliest with hahead | ⟨hneg, hreadable⟩
    · refine ⟨_, rearmed_of_ahead hahead _, hmem (le_max_right _ _) fun t ht => ?_⟩
      have hle := Int64.le_iff_toInt_le.1 (le_of_earliestChanged hs hearliest ht)
      exact hle.trans (le_max_right _ _)
    · obtain ⟨deadline, harmed, hle⟩ := (Option.any_eq_true _ _).1 hreadable
      refine ⟨deadline, (rearmed_of_neg hneg _).trans harmed, fun t _ => ?_⟩
      exact (of_decide_eq_true hle).trans (le_max_left _ _)
  | false =>
    cases htimers : s.timers with
    | nil => simp [earliestChanged, htimers] at hearliest
    | cons top rest =>
      have hle : (s.timer top).expiration ≤ (s.timer seq).expiration := by
        simpa [earliestChanged, htimers] using hearliest
      rw [Int64.le_iff_toInt_le] at hle
      obtain ⟨deadline, harmed, hdeadline⟩ := h.resolve_left (by simp [htimers])
      have htop : top ∈ s.timers := htimers ▸ List.mem_cons_self
      refine ⟨deadline, harmed, hmem ?_ hdeadline⟩
      have := hdeadline top htop
      show deadline ≤ max clock.toInt (s.timer seq).expiration.toInt
      omega

namespace Handled

variable {s s' : TimerManager} {now resetClock : Int64} {callback : ℕ → List TimerAction}

theorem expiration (h : Handled s s' now resetClock callback) (t : ℕ) :
    (s'.timer t).expiration = s.nextExpiration now callback t := by
  rw [h.timer]
  rfl

theorem mem_timers_of_left (h : Handled s s' now resetClock callback) {t : ℕ}
    (ht : t ∈ s.left now callback) : t ∈ s'.timers := by
  obtain ⟨hmem, hlive⟩ := List.mem_filter.1 ht
  rw [h.mem_timers (by simpa using hlive)]
  simpa using hmem

/-- The timer at the top is not marked. -/
theorem top_mem_left (h : Handled s s' now resetClock callback) {top : ℕ} {rest : List ℕ}
    (htop : s'.timers = top :: rest) : top ∈ s.left now callback := by
  obtain ⟨queue, hqueue, hdrop⟩ := h.timers
  rw [htop] at hdrop
  have hmem : top ∈ queue := (List.dropWhile_sublist _).subset (hdrop ▸ List.mem_cons_self)
  have hne : queue.dropWhile (s.marked now callback) ≠ [] := by simp [← hdrop]
  have hhead := List.head_dropWhile_not (s.marked now callback) hne
  have hlive : s.marked now callback top = false := by simpa [← hdrop] using hhead
  exact List.mem_filter.2 ⟨hqueue.subset hmem, by simp [hlive]⟩

/-- What is at the top is the earliest timer left, so `reset` arms the timerfd for one ahead. -/
theorem armedBy (h : Handled s s' now resetClock callback)
    (htimely : s.left now callback = [] ∨ ∃ t ∈ s.left now callback,
      Ahead (s.nextExpiration now callback t) resetClock ∧ ∀ u ∈ s.left now callback,
        s.nextExpiration now callback t ≤ s.nextExpiration now callback u)
    (clock : Int64) : s'.ArmedBy clock := by
  cases htimers : s'.timers with
  | nil => exact .inl htimers
  | cons top rest =>
    have htop := h.top_mem_left htimers
    obtain ⟨t, ht, hahead, hmin⟩ := htimely.resolve_left (List.ne_nil_of_mem htop)
    have hle := le_of_sorted h.sorted htimers (h.mem_timers_of_left ht)
    have hearliest : (s'.timer top).expiration = s.nextExpiration now callback t := by
      rw [h.expiration, h.expiration] at hle
      rw [h.expiration]
      exact Int64.le_antisymm hle (hmin top htop)
    obtain ⟨armed, harmed⟩ := h.armed top rest htimers
    rw [hearliest, rearmed_of_ahead hahead, ← hearliest] at harmed
    refine .inr ⟨_, harmed, fun u hu => ?_⟩
    have := Int64.le_iff_toInt_le.1 (le_of_sorted h.sorted htimers hu)
    omega

end Handled

end TimerManager

/-- The queue is in order, and armed in time whatever the clock says by now. -/
structure Arming (calls : List TimerCall) (s : TimerManager) : Prop where
  queued : Queued (traceOf calls) s
  armed : ∀ clock, (∀ r ∈ calls.flatMap readings, r ≤ clock) → s.ArmedBy clock

theorem Arming.step {calls : List TimerCall} {s : TimerManager} (h : Arming calls s) (op : TimerOp)
    (hnew : UniqueSeq calls (Call.make TimerOp.exec op s))
    (hclock : Clocked calls (Call.make TimerOp.exec op s))
    (htimely : Timely (Call.make TimerOp.exec op s)) :
    Arming (calls ++ [Call.make TimerOp.exec op s]) (op.exec s).state where
  queued := by
    rw [traceOf_append, traceOf_singleton]
    exact h.queued.step op hnew
  armed clock hall := by
    have hbefore : ∀ r ∈ calls.flatMap readings, r ≤ clock := fun r hr =>
      hall r (by rw [List.flatMap_append]; exact List.mem_append_left _ hr)
    cases op with
    | addTimerInLoop seq now =>
      have hnow : now ≤ clock := hall now (by simp [readings])
      have harmed := h.armed now fun r hr => hclock.le hr (List.mem_singleton.2 rfl)
      exact (TimerManager.armedBy_addTimerInLoop h.queued.sorted harmed htimely).mono hnow
    | cancelInLoop seq =>
      apply (h.armed clock hbefore).imp id
      rintro ⟨deadline, harmed, hle⟩
      refine ⟨deadline, harmed, fun t ht => ?_⟩
      obtain ⟨s', hop, ha⟩ := s.cancelInLoop_spec seq
      rw [TimerOp.exec, hop, ha.timer]
      exact hle t ht
    | handleRead readClock now resetClock callback =>
      obtain ⟨s', hop, hhandled⟩ := s.handleRead_spec readClock now resetClock callback
      rw [UniqueSeq, Call.make_outcome, TimerOp.exec, hop] at hnew
      rw [TimerOp.exec, hop]
      exact (hhandled h.queued.sorted (h.queued.added_new hnew)).armedBy htimely clock

/-- **The timerfd is armed in time** after every run whose calls are `Timely`, at every time from
the last reading of the clock on. -/
theorem armed_of_timely {timer : ℕ → Timer} {calls : List TimerCall} {s : TimerManager}
    (h : Run TimerOp.exec
      (fun calls call => UniqueSeq calls call ∧ Clocked calls call ∧ Timely call)
      (TimerManager.start timer) calls s)
    (clock : Int64) (hclock : ∀ r ∈ calls.flatMap readings, r ≤ clock) : s.ArmedInTime clock := by
  have harming : Arming calls s := by
    refine h.invariant ⟨queued_start timer, fun _ _ => .inl rfl⟩ ?_
    rintro calls s op hinv ⟨hnew, hclocked, htimely⟩ -
    exact hinv.step op hnew hclocked htimely
  exact (harming.armed clock hclock).inTime

/-- A repeating timer goes back to the queue beside one that its callback has added. -/
theorem armed_of_timely_of_repeat :
    ∃ calls s, Run TimerOp.exec
        (fun calls call => UniqueSeq calls call ∧ Clocked calls call ∧ Timely call)
        (TimerManager.start fun t => ⟨[0, 20, 30].getD t 0, if t = 1 then 5 else 0, false⟩)
        calls s ∧
      s.timers = [1, 2] ∧ s.ArmedInTime 22 := by
  have hrun : Run TimerOp.exec
      (fun calls call => UniqueSeq calls call ∧ Clocked calls call ∧ Timely call)
      (TimerManager.start fun t => ⟨[0, 20, 30].getD t 0, if t = 1 then 5 else 0, false⟩) _ _ :=
    run_replay [.addTimerInLoop 1 10,
      .handleRead 21 21 22 fun t => if t = 1 then [.addTimerInLoop 2 21] else []]
      (by decide +kernel)
  -- The readings are few, the values of `Int64` are not.
  exact ⟨_, _, hrun, by decide +kernel,
    armed_of_timely hrun 22 (List.all_iff_forall_prop.1 (by decide +kernel))⟩

/-! ## A timer that is due already -/

/-- Added at time 10, a timer that expires at 5 does not arm the timerfd. -/
theorem past_timer_not_armed :
    ¬∀ (timer : ℕ → Timer) (calls : List TimerCall) (s : TimerManager) (clock : Int64),
      Run TimerOp.exec (fun calls call => UniqueSeq calls call ∧ Clocked calls call)
        (TimerManager.start timer) calls s →
      (∀ r ∈ calls.flatMap readings, r ≤ clock) → s.ArmedInTime clock := by
  intro h
  have hrun : Run TimerOp.exec (fun calls call => UniqueSeq calls call ∧ Clocked calls call)
      (TimerManager.start fun _ => ⟨5, 0, false⟩) _ _ :=
    run_replay [.addTimerInLoop 1 10] (by decide +kernel)
  obtain ⟨deadline, harmed, -⟩ := h _ _ _ 10 hrun (List.all_iff_forall_prop.1 (by decide +kernel))
    (by decide +kernel)
  have hnone : (replayState TimerOp.exec [.addTimerInLoop 1 10]
      (TimerManager.start fun _ => ⟨5, 0, false⟩)).timerFd = none := by decide +kernel
  rw [hnone] at harmed
  cases harmed

end Cannet.Net
