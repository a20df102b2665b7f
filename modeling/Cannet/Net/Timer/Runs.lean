import Cannet.Net.Timer.Batch

/-!
# Runs of the timer queue

The calls on the timers of a loop, in any order in which each timer is added once. Two invariants
carry over from call to call: `Queued`, of what is in the queue, and `Marked`, of which timers are
marked and which have been run.
-/

namespace Cannet.Net

open Foundations

/-- The calls, with the readings of the clock they take. -/
inductive TimerOp
  | addTimerInLoop (seq : ℕ) (clock : Int64)
  | cancelInLoop (seq : ℕ)
  | handleRead (readClock now resetClock : Int64) (callback : ℕ → List TimerAction)

def TimerOp.exec : TimerOp → TimerAct Unit
  | addTimerInLoop seq clock => TimerManager.addTimerInLoop seq clock
  | cancelInLoop seq => TimerManager.cancelInLoop seq
  | handleRead readClock now resetClock callback =>
    TimerManager.handleRead readClock now resetClock callback

abbrev TimerCall := Call TimerOp Empty TimerEffect TimerManager

/-- The timers added, in order. -/
def inserted (es : List TimerEffect) : List ℕ :=
  es.filterMap fun
    | .addTimerInLoop seq => some seq
    | _ => none

@[simp] theorem inserted_append (es es' : List TimerEffect) :
    inserted (es ++ es') = inserted es ++ inserted es' := List.filterMap_append

/-- Every timer is added once: `addTimer` makes a new object for each. -/
def UniqueSeq (calls : List TimerCall) (call : TimerCall) : Prop :=
  (inserted (traceOf calls ++ call.outcome.trace)).Nodup

instance (calls : List TimerCall) (call : TimerCall) : Decidable (UniqueSeq calls call) :=
  inferInstanceAs (Decidable (List.Nodup _))

/-! ## What is in the queue -/

/-- The queue after the calls whose trace is `es`. -/
structure Queued (es : List TimerEffect) (s : TimerManager) : Prop where
  sorted : TimerSorted s.timer s.timers
  nodup : s.timers.Nodup
  added : ∀ t ∈ s.timers, t ∈ inserted es

theorem queued_start (timer : ℕ → Timer) : Queued [] (TimerManager.start timer) where
  sorted := .nil
  nodup := .nil
  added _ ht := absurd ht List.not_mem_nil

theorem Queued.after {es es' : List TimerEffect} {s s' : TimerManager}
    {added cancelled : List ℕ} (h : Queued es s) (ha : After s s' added cancelled)
    (hes : inserted es' = added) (hnew : (inserted (es ++ es')).Nodup) : Queued (es ++ es') s' where
  sorted := ha.sorted h.sorted
  nodup := by
    rw [inserted_append, hes] at hnew
    obtain ⟨-, hadded, hdisj⟩ := List.nodup_append'.1 hnew
    refine ha.timers.nodup_iff.2 (List.nodup_append'.2 ⟨hadded, h.nodup, fun t ht hmem => ?_⟩)
    exact hdisj (h.added t hmem) ht
  added t ht := by
    rw [inserted_append, hes]
    rcases List.mem_append.1 (ha.timers.subset ht) with hadd | hmem
    · exact List.mem_append_right _ hadd
    · exact List.mem_append_left _ (h.added t hmem)

theorem inserted_turns (callback : ℕ → List TimerAction) (ran : List ℕ) :
    inserted (ran.flatMap (TimerManager.turnEffects callback)) =
      ran.flatMap (TimerManager.addsOf callback) := by
  have hacts : ∀ acts : List TimerAction,
      inserted (acts.map TimerAction.effect) = acts.flatMap TimerAction.adds := by
    intro acts
    induction acts with
    | nil => rfl
    | cons a acts ih => cases a <;> simpa [inserted, TimerAction.effect, TimerAction.adds] using ih
  induction ran with
  | nil => rfl
  | cons key ran ih =>
    rw [List.flatMap_cons, inserted_append, ih, List.flatMap_cons]
    congr 1
    exact hacts (callback key)

/-- What a `handleRead` is about to add is new. -/
theorem Queued.added_new {es : List TimerEffect} {s : TimerManager} {now : Int64}
    {callback : ℕ → List TimerAction} (h : Queued es s)
    (hnew : (inserted (es ++ (s.ran now callback).flatMap
      (TimerManager.turnEffects callback))).Nodup) :
    (s.added now callback ++ s.timers).Nodup := by
  rw [inserted_append, inserted_turns] at hnew
  obtain ⟨-, hadded, hdisj⟩ := List.nodup_append'.1 hnew
  exact List.nodup_append'.2 ⟨hadded, h.nodup, fun t ht hmem => hdisj (h.added t hmem) ht⟩

/-- A batch leaves the queue in order, and what it adds is in it. -/
theorem Queued.handled {es : List TimerEffect} {s s' : TimerManager} {now resetClock : Int64}
    {callback : ℕ → List TimerAction} (h : Queued es s)
    (hh : TimerManager.Handled s s' now resetClock callback)
    (hnew : (s.added now callback ++ s.timers).Nodup) :
    Queued (es ++ (s.ran now callback).flatMap (TimerManager.turnEffects callback)) s' where
  sorted := hh.sorted
  nodup := hh.nodup h.sorted hnew
  added t ht := by
    rw [inserted_append, inserted_turns, List.mem_append]
    obtain ⟨queue, hqueue, htimers⟩ := hh.timers
    rw [htimers] at ht
    have hmem := hqueue.subset ((List.dropWhile_sublist _).subset ht)
    rcases List.mem_append.1 hmem with hback | hmem
    · exact .inl (h.added t ((TimerManager.mem_back h.sorted).1 hback).1.1)
    · rcases List.mem_append.1 hmem with hadd | hwait
      · exact .inr hadd
      · exact .inl (h.added t ((s.waiting_sublist now).subset hwait))

/-- One call keeps the queue in order. -/
theorem Queued.step {es : List TimerEffect} {s : TimerManager} (h : Queued es s) (op : TimerOp)
    (hnew : (inserted (es ++ (op.exec s).trace)).Nodup) :
    Queued (es ++ (op.exec s).trace) (op.exec s).state := by
  cases op with
  | addTimerInLoop seq clock =>
    obtain ⟨s', hop, ha⟩ := s.addTimerInLoop_spec seq clock
    rw [TimerOp.exec, hop] at hnew ⊢
    exact h.after ha rfl hnew
  | cancelInLoop seq =>
    obtain ⟨s', hop, ha⟩ := s.cancelInLoop_spec seq
    rw [TimerOp.exec, hop] at hnew ⊢
    exact h.after ha rfl hnew
  | handleRead readClock now resetClock callback =>
    obtain ⟨s', hop, hhandled⟩ := s.handleRead_spec readClock now resetClock callback
    rw [TimerOp.exec, hop] at hnew ⊢
    have hadded := h.added_new hnew
    exact h.handled (hhandled h.sorted hadded) hadded

theorem queued_of_run {timer : ℕ → Timer} {calls : List TimerCall} {s : TimerManager}
    (h : Run TimerOp.exec UniqueSeq (TimerManager.start timer) calls s) :
    Queued (traceOf calls) s := by
  refine h.invariant (I := fun calls s => Queued (traceOf calls) s) (queued_start timer) ?_
  intro calls s op hq hg _
  rw [traceOf_append, traceOf_singleton]
  exact hq.step op hg

/-! ## What has been cancelled -/

/-- No timer is run after it was cancelled. -/
def NoRunAfterCancel (es : List TimerEffect) : Prop :=
  es.Pairwise fun e e' => ∀ t, e = .cancelInLoop t → e' ≠ .run t

/-- The timers that are marked are those cancelled so far, and none of them was run again. -/
structure Marked (es : List TimerEffect) (s : TimerManager) : Prop where
  isDelete : ∀ t, (s.timer t).isDelete = true ↔ .cancelInLoop t ∈ es
  noRun : NoRunAfterCancel es

theorem marked_start (timer : ℕ → Timer) : Marked [] (TimerManager.start timer) where
  isDelete t := by simp [TimerManager.start, Timer.setDelete]
  noRun := .nil

/-- What does not touch the marks. -/
theorem Marked.frame {es : List TimerEffect} {s s' : TimerManager} (h : Marked es s)
    (hs : ∀ t, (s'.timer t).isDelete = (s.timer t).isDelete) : Marked es s' where
  isDelete t := by rw [hs, h.isDelete]
  noRun := h.noRun

/-- What is done next, when it is not the run of a marked timer. -/
theorem NoRunAfterCancel.snoc {es : List TimerEffect} {e : TimerEffect}
    (h : NoRunAfterCancel es) (he : ∀ t, .cancelInLoop t ∈ es → e ≠ .run t) :
    NoRunAfterCancel (es ++ [e]) := by
  refine List.pairwise_append.2 ⟨h, List.pairwise_singleton _ _, ?_⟩
  rintro a ha e' he' t rfl
  rw [List.mem_singleton.1 he']
  exact he t ha

namespace TimerManager

theorem keeps_resetTimerFd (expiration clock : Int64) :
    (resetTimerFd expiration clock).Keeps Marked :=
  .modify fun _ _ h => h.frame fun _ => rfl

theorem keeps_insert (seq : ℕ) : (insert seq).Keeps Marked := by
  intro es s h
  rw [s.insert_apply seq, List.append_nil]
  exact h.frame fun _ => rfl

theorem keeps_addTimerInLoop (seq : ℕ) (clock : Int64) :
    (addTimerInLoop seq clock).Keeps Marked := by
  refine .bind (.emit fun es s h => ⟨fun t => ?_, h.noRun.snoc fun t _ => by simp⟩) fun _ =>
    .bind (keeps_insert seq) fun changed =>
      .ite (.bind .get fun s => keeps_resetTimerFd _ clock) (.pure ())
  rw [h.isDelete]
  simp

theorem keeps_cancelInLoop (seq : ℕ) : (cancelInLoop seq).Keeps Marked := by
  intro es s h
  have hcancel : cancelInLoop seq s =
      ⟨.ok (), s.setTimer seq (Timer.setDelete true), [.cancelInLoop seq]⟩ := rfl
  rw [hcancel]
  refine ⟨fun t => ?_, h.noRun.snoc fun t _ => by simp⟩
  by_cases ht : t = seq
  · simp [setTimer, Timer.setDelete, ht]
  · simp [setTimer, ht, h.isDelete]

theorem keeps_act (a : TimerAction) : (act a).Keeps Marked := by
  cases a with
  | addTimerInLoop seq clock => exact keeps_addTimerInLoop seq clock
  | cancelInLoop seq => exact keeps_cancelInLoop seq

/-- The test before the turn of a timer is what keeps a cancelled one from being run. -/
theorem keeps_runExpired (callback : ℕ → List TimerAction) (key : ℕ) :
    (runExpired callback key).Keeps Marked := by
  intro es s h
  rw [runExpired, Act.get_bind, Act.ite_apply]
  by_cases hdel : (s.timer key).isDelete = true
  · rw [if_neg (by simp [hdel])]
    simpa using h
  · rw [if_pos hdel, run, Act.emit_bind]
    have hrun : Marked (es ++ [.run key]) s := by
      refine ⟨fun t => ?_, h.noRun.snoc fun t ht heq => ?_⟩
      · rw [h.isDelete]
        simp
      · obtain rfl := TimerEffect.run.inj heq
        exact hdel ((h.isDelete _).2 ht)
    have hacts := Act.Keeps.forM (fun a _ => keeps_act a) (es ++ [.run key]) s hrun
      (l := callback key)
    simpa using hacts

theorem keeps_getExpired (now : Int64) (l : List ℕ) : (getExpired now l).Keeps Marked := by
  induction l with
  | nil => exact .pure _
  | cons top rest ih =>
    refine .bind .get fun s => .ite ?_ (.pure _)
    exact .bind (.modify fun _ _ h => h.frame fun _ => rfl) fun _ =>
      .bind ih fun expired => .pure _

theorem keeps_restartExpired (now : Int64) (key : ℕ) : (restartExpired now key).Keeps Marked := by
  refine .bind .get fun s => .ite ?_ (.pure _)
  refine .bind (.modify fun _ _ h => h.frame fun t => ?_) fun _ =>
    .bind (keeps_insert key) fun _ => .pure _
  by_cases ht : t = key <;> simp [setTimer, Timer.restart, ht]

theorem keeps_pruneAndRearm (clock : Int64) (l : List ℕ) :
    (pruneAndRearm clock l).Keeps Marked := by
  induction l with
  | nil => exact .pure _
  | cons top rest ih =>
    refine .bind .get fun s => .ite (keeps_resetTimerFd _ clock) ?_
    exact .bind (.modify fun _ _ h => h.frame fun _ => rfl) fun _ => ih

theorem keeps_handleRead (readClock now resetClock : Int64) (callback : ℕ → List TimerAction) :
    (handleRead readClock now resetClock callback).Keeps Marked := by
  refine .bind (.modify fun _ _ h => h.frame fun _ => rfl) fun _ => .bind .get fun s =>
    .bind (keeps_getExpired now s.timers) fun expired =>
      .bind (.forM fun key _ => keeps_runExpired callback key) fun _ =>
        .bind (.forM fun key _ => keeps_restartExpired now key) fun _ =>
          .bind .get fun s' => keeps_pruneAndRearm resetClock s'.timers

end TimerManager

theorem TimerOp.keeps (op : TimerOp) : op.exec.Keeps Marked := by
  cases op with
  | addTimerInLoop seq clock => exact TimerManager.keeps_addTimerInLoop seq clock
  | cancelInLoop seq => exact TimerManager.keeps_cancelInLoop seq
  | handleRead readClock now resetClock callback =>
    exact TimerManager.keeps_handleRead readClock now resetClock callback

/-! ## The next batch -/

/-- **Every batch of every run** does what `Batch` says; the timers that are marked before it are
those cancelled by then, and no timer has been run after it was cancelled when it is over. -/
theorem handleRead_batch {timer : ℕ → Timer} {calls : List TimerCall} {s : TimerManager}
    (h : Run TimerOp.exec UniqueSeq (TimerManager.start timer) calls s)
    (readClock now resetClock : Int64) (callback : ℕ → List TimerAction)
    (hnew : UniqueSeq calls
      (Call.make TimerOp.exec (.handleRead readClock now resetClock callback) s)) :
    ∃ ran s', TimerOp.exec (.handleRead readClock now resetClock callback) s =
        ⟨.ok (), s', ran.flatMap (TimerManager.turnEffects callback)⟩ ∧
      TimerManager.Batch s s' now callback ran ∧
      (∀ t, (s.timer t).isDelete = true ↔ .cancelInLoop t ∈ traceOf calls) ∧
      NoRunAfterCancel (traceOf calls ++ ran.flatMap (TimerManager.turnEffects callback)) := by
  have hqueued := queued_of_run h
  have hmarked : Marked (traceOf calls) s := h.keeps (marked_start timer) TimerOp.keeps
  obtain ⟨s', hop, hhandled⟩ := s.handleRead_spec readClock now resetClock callback
  have hnext := (TimerOp.handleRead readClock now resetClock callback).keeps _ _ hmarked
  rw [UniqueSeq, Call.make_outcome, TimerOp.exec, hop] at hnew
  rw [TimerOp.exec, hop] at hnext
  have hadded := hqueued.added_new hnew
  exact ⟨s.ran now callback, s', hop, (hhandled hqueued.sorted hadded).batch hqueued.sorted hadded,
    hmarked.isDelete, hnext.noRun⟩

/-- The repeating timer 1 cancels timer 2 of its own batch and adds timer 4. -/
theorem handleRead_batch_of_cancel_in_batch :
    ∃ calls s, Run TimerOp.exec UniqueSeq (TimerManager.start fun t =>
        ⟨[0, 10, 10, 20, 15].getD t 0, if t = 1 then 5 else 0, false⟩) calls s ∧
      s.timers = [1, 2, 3] ∧
      ∃ ran s', TimerOp.exec (.handleRead 12 12 13 fun t =>
          if t = 1 then [.cancelInLoop 2, .addTimerInLoop 4 12] else []) s =
          ⟨.ok (), s', ran.flatMap (TimerManager.turnEffects fun t =>
            if t = 1 then [.cancelInLoop 2, .addTimerInLoop 4 12] else [])⟩ ∧
        TimerManager.Batch s s' 12 (fun t =>
          if t = 1 then [.cancelInLoop 2, .addTimerInLoop 4 12] else []) ran ∧
        (∀ t, (s.timer t).isDelete = true ↔ .cancelInLoop t ∈ traceOf calls) ∧
        NoRunAfterCancel (traceOf calls ++ ran.flatMap (TimerManager.turnEffects fun t =>
          if t = 1 then [.cancelInLoop 2, .addTimerInLoop 4 12] else [])) := by
  have hrun : Run TimerOp.exec UniqueSeq (TimerManager.start fun t =>
      ⟨[0, 10, 10, 20, 15].getD t 0, if t = 1 then 5 else 0, false⟩) _ _ :=
    run_replay [.addTimerInLoop 2 0, .addTimerInLoop 3 1, .addTimerInLoop 1 2]
      (by decide +kernel)
  exact ⟨_, _, hrun, by decide +kernel, handleRead_batch hrun 12 12 13 _ (by decide +kernel)⟩

end Cannet.Net
