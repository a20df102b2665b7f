import Cannet.Base.AsyncLogger.Order

/-!
# The last records

`stop` clears `running_`, wakes the writer and waits for its end. The writer takes what has been
appended once more if it is between its test of `running_` and its critical section at that
moment; if it is past the critical section, or at the test, it never looks at the buffers again.
The records appended before `stop` are in the file when it returns in the first case, and in the
second only if the front end's buffers are empty (`stop_writes_all`).
-/

namespace Cannet.Base

open Foundations AsyncLogger

variable {β : Type}

/-- The writer is between its test of `running_` and its critical section. -/
def Writer.swapsAgain : Writer → Bool
  | locking | waiting => true
  | _ => false

/-- The bytes of the batches that the writer has taken. -/
def takenBytes (es : List (LogEvent β)) : List β := (batchesOf es).flatten.flatten

theorem takenBytes_append (es es' : List (LogEvent β)) :
    takenBytes (es ++ es') = takenBytes es ++ takenBytes es' := by
  simp [takenBytes]

section

variable {s s' : AsyncLogger β} {op : LogOp β} {before es : List (LogEvent β)}
  {earlier : List (List (List (List β)))} {batch full : List (List (List β))}
  {cur : List (List β)}

theorem Ordered.taken_bytes (ho : Ordered es s earlier batch full cur) :
    takenBytes es = (earlier.flatten ++ batch).flatten.flatten := by
  rw [takenBytes, ho.batches]
  cases hw : s.writer.hasBatch with
  | true => simp [List.flatten_flatten, Function.comp_def]
  | false =>
    rw [ho.noBatch hw]
    simp [List.flatten_flatten, Function.comp_def]

/-- What was appended is taken or pending. -/
theorem Ordered.bytes (ho : Ordered es s earlier batch full cur) :
    (recordsOf es).flatten = takenBytes es ++ s.pending := by
  rw [ho.taken_bytes, ho.pending, ho.records, ← List.flatten_append, ← List.flatten_append,
    ← List.append_assoc]

theorem cut_of_short {α : Type} {batch : List α} (h : batch.length ≤ 25) : cut batch = batch :=
  if_neg (Nat.not_lt.2 h)

/-- What was taken is written or about to be, if no batch is cut. -/
theorem Ordered.written_eq (ho : Ordered es s earlier batch full cur)
    (hshort : ∀ b ∈ batchesOf es, b.length ≤ 25) :
    writtenOf es ++ s.unwritten = takenBytes es := by
  rw [ho.batches] at hshort
  have hcut : ∀ b ∈ earlier ++ (if s.writer.hasBatch then [batch] else []), cut b = b := by
    intro b hb
    have hlen := hshort _ (List.mem_map_of_mem hb)
    rw [List.length_map] at hlen
    exact cut_of_short hlen
  have hearlier : earlier.flatMap cut = earlier.flatten := by
    rw [List.flatMap_congr fun b hb => hcut b (List.mem_append_left _ hb), List.flatMap_id']
  have hbatch : s.writer.kept batch = batch := by
    cases hw : s.writer with
    | writing => exact hcut batch (by simp [hw, Writer.hasBatch])
    | _ => rfl
  rw [ho.file, ho.taken_bytes, hearlier, hbatch]

/-- `stop` has been called, after `start`. -/
structure Stopping (s : AsyncLogger β) : Prop where
  running : s.running = false
  started : s.writer ≠ .none
  joined : s.stopper = .returned → s.writer = .returned

theorem Stopping.step (hs : Stopping s) (h : Stepped s op es s') : Stopping s' := by
  obtain ⟨hrunning, hstarted, hjoined⟩ := hs
  cases h with
  | start h => exact absurd h hstarted
  | stop h => exact ⟨rfl, hstarted, fun hr => by cases hr⟩
  | join h => exact ⟨hrunning, hstarted, fun _ => h.2⟩
  | go h hr => exact absurd (hrunning.symm.trans hr) Bool.false_ne_true
  | leave h => exact ⟨hrunning, Writer.noConfusion, fun _ => rfl⟩
  | swap h =>
    refine ⟨hrunning, Writer.noConfusion, fun hr => ?_⟩
    have hw := hjoined hr
    rcases h with ⟨-, h⟩ | ⟨-, h⟩ <;> rw [h] at hw <;> cases hw
  | countDown h | setUp h | wait h | erase h | recycleOne h | recycleTwo h =>
    refine ⟨hrunning, Writer.noConfusion, fun hr => ?_⟩
    have hw := hjoined hr
    rw [h] at hw
    cases hw
  | _ => exact ⟨hrunning, hstarted, hjoined⟩

/-- The writer does not look at the front end's buffers again. -/
theorem Stopping.swapsNoMore (hs : Stopping s) (hw : s.writer.swapsAgain = false)
    (h : Stepped s op es s') : s'.writer.swapsAgain = false ∧ batchesOf es = [] := by
  cases h with
  | start h => exact absurd h hs.started
  | go h hr => exact absurd (hs.running.symm.trans hr) Bool.false_ne_true
  | wait h =>
    rw [h] at hw
    cases hw
  | swap h => rcases h with ⟨-, h⟩ | ⟨-, h⟩ <;> rw [h] at hw <;> cases hw
  | appendHere | appendNext | appendNew | stop | join | write => exact ⟨hw, rfl⟩
  | countDown | setUp | leave | erase | recycleOne | recycleTwo => exact ⟨rfl, rfl⟩

/-- After the critical section, nothing is pending. -/
theorem pending_swapped (hr : s.Roles) (hfree : s.bufferToWrite = []) : s.swapped.pending = [] := by
  have hcur : s.swapped.content s.swapped.currentBuffer = [] := hr.spareEmpty.1
  have hbuffers : s.swapped.buffers = [] := hfree
  rw [AsyncLogger.pending, hbuffers, List.nil_append, List.map_singleton, hcur]
  rfl

/-- What the writer comes to take is what was appended before it stops. -/
theorem Stopping.swapsOnce {R : List β} (hs : Stopping s) (hr : s.Roles)
    (hw : s.writer.swapsAgain = true ∨ R <+: takenBytes before) (h : Stepped s op es s')
    (ho : Ordered (before ++ es) s' earlier batch full cur)
    (hR : R <+: (recordsOf (before ++ es)).flatten) :
    s'.writer.swapsAgain = true ∨ R <+: takenBytes (before ++ es) := by
  rcases hw with hw | hw
  · cases h with
    | start h => exact absurd h hs.started
    | go h hr => exact absurd (hs.running.symm.trans hr) Bool.false_ne_true
    | wait h => exact .inl rfl
    | swap h =>
      have hfree : s.bufferToWrite = [] := by
        rcases h with ⟨-, h⟩ | ⟨-, h⟩ <;> exact hr.free (h ▸ rfl)
      rw [ho.bytes, pending_swapped hr hfree, List.append_nil] at hR
      exact .inr hR
    | appendHere | appendNext | appendNew | stop | join => exact .inl hw
    | write h | countDown h | setUp h | leave h | erase h | recycleOne h | recycleTwo h =>
      rw [h] at hw
      cases hw
  · rw [takenBytes_append]
    exact .inr (hw.trans (List.prefix_append _ _))

end

/-! ## Any run -/

/-- What holds after `stop` has been called, when `R` were the bytes appended so far. -/
structure AfterStop (R : List β) (swapsAgain : Bool) (before es : List (LogEvent β))
    (s : AsyncLogger β) : Prop where
  roles : s.Roles
  ordered : ∃ earlier batch full cur, Ordered (before ++ es) s earlier batch full cur
  stopping : Stopping s
  again : swapsAgain = true → s.writer.swapsAgain = true ∨ R <+: takenBytes (before ++ es)
  never : swapsAgain = false → s.writer.swapsAgain = false ∧ batchesOf es = []

theorem AfterStop.step {R : List β} {swapsAgain : Bool} {before es new : List (LogEvent β)}
    {s s' : AsyncLogger β} {op : LogOp β} (hi : AfterStop R swapsAgain before es s)
    (h : Stepped s op new s') (hR : R <+: (recordsOf before).flatten)
    (hfits : ∀ logline, op = .append logline → logline.length < kLargeBuffer) :
    AfterStop R swapsAgain before (es ++ new) s' := by
  obtain ⟨_, _, _, _, ho⟩ := hi.ordered
  obtain ⟨earlier, batch, full, cur, ho'⟩ := ho.step hi.roles h hfits
  refine ⟨hi.roles.step h, ⟨earlier, batch, full, cur, ?_⟩, hi.stopping.step h, fun ha => ?_,
    fun hn => ?_⟩
  · rw [← List.append_assoc]
    exact ho'
  · rw [← List.append_assoc]
    refine hi.stopping.swapsOnce hi.roles (hi.again ha) h ho' (hR.trans ?_)
    rw [List.append_assoc, recordsOf_append, List.flatten_append]
    exact List.prefix_append _ _
  · obtain ⟨hw, hnone⟩ := hi.never hn
    obtain ⟨hw', hnew⟩ := hi.stopping.swapsNoMore hw h
    exact ⟨hw', by rw [batchesOf_append, hnone, hnew]; rfl⟩

/-- `stop` is called. -/
theorem afterStop_of_stop {calls : List (LogCall β)} {s : AsyncLogger β}
    (h : Run LogOp.exec (fun _ call => Fits call) AsyncLogger.init calls s)
    (hok : ((LogOp.stop : LogOp β).exec s).val = .ok ()) :
    ((LogOp.stop : LogOp β).exec s).trace = [] ∧
      AfterStop (recordsOf (traceOf calls)).flatten s.writer.swapsAgain (traceOf calls) []
        ((LogOp.stop : LogOp β).exec s).state := by
  obtain ⟨hr, earlier, batch, full, cur, ho⟩ := ordered h
  have hstep := stepped .stop (fun hw => hr.taken (hw ▸ rfl)) hok
  obtain ⟨hstarted, -⟩ := Act.await_ok hok
  rw [LogOp.exec, AsyncLogger.stop, Act.await_pos hstarted]
  refine ⟨rfl, hr.goto false .joining s.index id rfl, ⟨earlier, batch, full, cur, ?_⟩,
    ⟨rfl, hstarted.2.1, fun hret => by cases hret⟩, fun ha => .inl ha, fun hn => ⟨hn, rfl⟩⟩
  rw [List.append_nil]
  exact ⟨ho.records, ho.batches, ho.noBatch, ho.full, ho.current, ho.taken, ho.written⟩

/-- The run goes on after `stop`. -/
theorem run_afterStop {pre post : List (LogCall β)} {s₁ s : AsyncLogger β}
    (hpre : Run LogOp.exec (fun _ call => Fits call) AsyncLogger.init pre s₁)
    (hok : ((LogOp.stop : LogOp β).exec s₁).val = .ok ())
    {Guard : List (LogCall β) → LogCall β → Prop}
    (hguard : ∀ calls call, Guard calls call → Fits call)
    (hpost : Run LogOp.exec Guard ((LogOp.stop : LogOp β).exec s₁).state post s) :
    AfterStop (recordsOf (traceOf pre)).flatten s₁.writer.swapsAgain (traceOf pre)
      (traceOf post) s := by
  obtain ⟨-, hafter⟩ := afterStop_of_stop hpre hok
  refine hpost.invariant (I := fun calls s => AfterStop (recordsOf (traceOf pre)).flatten
    s₁.writer.swapsAgain (traceOf pre) (traceOf calls) s) hafter ?_
  intro calls s op hi hfits hok
  rw [traceOf_append, traceOf_singleton]
  have hstep := stepped op (fun hw => hi.roles.taken (hw ▸ rfl)) hok
  refine hi.step hstep (List.prefix_refl _) fun logline hop => ?_
  subst hop
  exact hguard _ _ hfits

/-- A writer that has returned has written everything it took. -/
theorem AfterStop.written_eq {R : List β} {swapsAgain : Bool} {before es : List (LogEvent β)}
    {s : AsyncLogger β} (h : AfterStop R swapsAgain before es s) (hwriter : s.writer = .returned)
    (hshort : ∀ b ∈ batchesOf (before ++ es), b.length ≤ 25) :
    writtenOf (before ++ es) = takenBytes (before ++ es) := by
  obtain ⟨_, _, _, _, ho⟩ := h.ordered
  have hunwritten : s.unwritten = [] := by
    rw [AsyncLogger.unwritten, h.roles.free (hwriter ▸ rfl)]
    simp
  rw [← ho.written_eq hshort, hunwritten, List.append_nil]

/-- The records appended before `stop` come to be taken exactly when the writer takes a batch
again, or has taken them all. -/
theorem AfterStop.taken_iff {R left : List β} {swapsAgain : Bool} {before es : List (LogEvent β)}
    {s : AsyncLogger β} (h : AfterStop R swapsAgain before es s) (hwriter : s.writer = .returned)
    (hR : R = takenBytes before ++ left) :
    R <+: takenBytes (before ++ es) ↔ swapsAgain = true ∨ left = [] := by
  cases hagain : swapsAgain with
  | true =>
    refine iff_of_true ?_ (.inl rfl)
    rcases h.again hagain with hswaps | htaken
    · rw [hwriter] at hswaps
      cases hswaps
    · exact htaken
  | false =>
    obtain ⟨-, hnone⟩ := h.never hagain
    have hsame : takenBytes (before ++ es) = takenBytes before := by
      rw [takenBytes_append, takenBytes, takenBytes, hnone]
      simp
    rw [hsame, hR]
    constructor
    · intro hfirst
      have hlength := hfirst.length_le
      rw [List.length_append] at hlength
      exact .inr (List.length_eq_zero_iff.1 (by omega))
    · rintro (hfalse | hempty)
      · cases hfalse
      · exact ⟨[], by rw [hempty, List.append_nil, List.append_nil]⟩

/-- **The records appended before `stop` are in the file when it returns** exactly when the writer
still takes a batch at that time, or all of them have been taken. -/
theorem stop_writes_all {pre post : List (LogCall β)} {call : LogCall β} {s : AsyncLogger β}
    (h : Run LogOp.exec (fun _ call => Fits call) AsyncLogger.init (pre ++ call :: post) s)
    (hstop : call.input = .stop) (hreturned : s.stopper = .returned)
    (hshort : ∀ b ∈ batchesOf (traceOf (pre ++ call :: post)), b.length ≤ 25) :
    (recordsOf (traceOf pre)).flatten <+: writtenOf (traceOf (pre ++ call :: post)) ↔
      call.before.writer.swapsAgain = true ∨ call.before.pending = [] := by
  obtain ⟨hpre, ⟨-, hcall, hok⟩, hpost⟩ := h.split
  obtain ⟨input, s₁, o⟩ := call
  obtain rfl : input = .stop := hstop
  obtain rfl : o = (LogOp.stop : LogOp β).exec s₁ := congrArg Call.outcome hcall
  have hall : traceOf (pre ++ ⟨.stop, s₁, (LogOp.stop : LogOp β).exec s₁⟩ :: post) =
      traceOf pre ++ traceOf post := by
    have hone : traceOf [(⟨.stop, s₁, (LogOp.stop : LogOp β).exec s₁⟩ : LogCall β)] = [] :=
      (traceOf_singleton _).trans (afterStop_of_stop hpre hok).1
    rw [← List.singleton_append, traceOf_append, traceOf_append, hone, List.nil_append]
  rw [hall] at hshort ⊢
  have hlast := run_afterStop hpre hok (fun _ _ => id) hpost
  have hwriter : s.writer = .returned := hlast.stopping.joined hreturned
  obtain ⟨-, _, _, _, _, hordered⟩ := ordered hpre
  rw [hlast.written_eq hwriter hshort]
  exact hlast.taken_iff hwriter hordered.bytes

/-- `stop` is called while the writer waits: its last record is written. -/
theorem stop_writes_all_of_wait :
    ∃ (pre post : List (LogCall ℕ)) (call : LogCall ℕ) (s : AsyncLogger ℕ),
      Run LogOp.exec (fun _ call => Fits call) AsyncLogger.init (pre ++ call :: post) s ∧
      recordsOf (traceOf pre) = [[1, 2]] ∧ call.before.writer.swapsAgain = true ∧
      ((recordsOf (traceOf pre)).flatten <+: writtenOf (traceOf (pre ++ call :: post)) ↔
        call.before.writer.swapsAgain = true ∨ call.before.pending = []) := by
  have hpre : Run (LogOp.exec (β := ℕ)) (fun _ call => Fits call) AsyncLogger.init _ _ :=
    run_replay [.start, .countDown, .setUp, .test, .lock, .append [1, 2]] (by decide +kernel)
  have hstop := hpre.snoc .stop (by decide +kernel) (by decide +kernel)
  have hall := Run.append [.wake, .erase, .write, .recycle, .test, .join] hstop (by decide +kernel)
  rw [List.append_assoc, List.singleton_append] at hall
  exact ⟨_, _, _, _, hall, by decide +kernel, by decide +kernel,
    stop_writes_all hall rfl (by decide +kernel) (by decide +kernel)⟩

/-- A record is appended after the writer's critical section, and the writer's next test of
`running_` is its last. -/
theorem stop_loses_record :
    ¬∀ (pre post : List (LogCall ℕ)) (call : LogCall ℕ) (s : AsyncLogger ℕ),
      Run LogOp.exec (fun _ call => Fits call) AsyncLogger.init (pre ++ call :: post) s →
      call.input = .stop → s.stopper = .returned →
      (∀ b ∈ batchesOf (traceOf (pre ++ call :: post)), b.length ≤ 25) →
      (recordsOf (traceOf pre)).flatten <+: writtenOf (traceOf (pre ++ call :: post)) := by
  intro h
  have hpre : Run (LogOp.exec (β := ℕ)) (fun _ call => Fits call) AsyncLogger.init _ _ :=
    run_replay [.start, .countDown, .setUp, .test, .lock, .wake, .append [1, 2]] (by decide +kernel)
  have hstop := hpre.snoc .stop (by decide +kernel) (by decide +kernel)
  have hall := Run.append [.erase, .write, .recycle, .test, .join] hstop (by decide +kernel)
  rw [List.append_assoc, List.singleton_append] at hall
  have hprefix := h _ _ _ _ hall rfl (by decide +kernel) (by decide +kernel)
  revert hprefix
  decide +kernel

end Cannet.Base
