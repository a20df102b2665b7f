import Cannet.Base.AsyncLogger.Roles

/-!
# The assertions of the writer

An iteration gives up the first spare buffer, and the second if the next buffer was in use; it
needs as many buffers to make up for them. The current buffer is always in the batch, and if the
next buffer was in use a full one is as well, so there are enough (`Roles.next`, `Taken`). No step
of a run fails, therefore, as long as the lengths of the records are of type `int`
(`assertions_hold`).
-/

namespace Cannet.Base

open Foundations

variable {β : Type}

namespace AsyncLogger

variable {s s' : AsyncLogger β} {op : LogOp β} {es : List (LogEvent β)}

/-- The invariant behind the assertions. -/
structure Safe (s : AsyncLogger β) : Prop where
  roles : s.Roles
  running : s.writer = .starting → s.running = true

theorem Safe.init : (AsyncLogger.init : AsyncLogger β).Safe where
  roles := .start
  running h := by cases h

theorem Safe.step (hs : s.Safe) (h : Stepped s op es s') : s'.Safe := by
  refine ⟨hs.roles.step h, fun hw => ?_⟩
  cases h with
  | appendHere | appendNext | appendNew | join => exact hs.running hw
  | start => rfl
  | stop h => exact absurd hw h.2.2
  | write h => exact absurd (h.symm.trans hw) Writer.noConfusion
  | _ => cases hw

/-! ## No step fails -/

theorem appendCurrent_apply {logline : List β} {i : ℕ} (hcur : s.currentBuffer = some i)
    (hint : logline.length < 2 ^ 31) :
    ∃ s', appendCurrent logline s = ⟨.ok (), s', []⟩ := by
  obtain ⟨b, hb⟩ := (s.heap.get i).append_isSome hint
  rw [appendCurrent, Act.get_bind, hcur, Act.need_some, Act.pure_bind, hb, Act.need_some,
    Act.pure_bind]
  exact ⟨_, rfl⟩

/-- **`append`** finds a current buffer, also after the full one is put away. -/
theorem append_ok {logline : List β} (hcur : s.currentBuffer ≠ none)
    (hint : logline.length < 2 ^ 31) : (AsyncLogger.append logline s).val = .ok () := by
  obtain ⟨i, hi⟩ := Option.ne_none_iff_exists'.1 hcur
  rw [AsyncLogger.append, Act.get_bind, hi, Act.need_some, Act.pure_bind]
  by_cases havail : (s.heap.get i).avail > logline.length
  · obtain ⟨s', happ⟩ := appendCurrent_apply hi hint
    rw [if_pos havail, Act.bind_ok happ]
    rfl
  · rw [if_neg havail]
    cases hnext : s.nextBuffer with
    | none =>
      obtain ⟨s', happ⟩ := appendCurrent_apply (s := { s with
        heap := s.heap.alloc .empty
        buffers := s.buffers ++ [s.currentBuffer]
        currentBuffer := some s.heap.made }) rfl hint
      have hboth : (rotate >>= fun _ => appendCurrent logline) s = ⟨.ok (), s', []⟩ := by
        rw [Act.bind_ok (rotate_new hnext), happ]
        rfl
      rw [Act.bind_ok hboth]
      rfl
    | some j =>
      obtain ⟨s', happ⟩ := appendCurrent_apply (s := { s with
        buffers := s.buffers ++ [s.currentBuffer]
        currentBuffer := some j
        nextBuffer := none }) rfl hint
      have hboth : (rotate >>= fun _ => appendCurrent logline) s = ⟨.ok (), s', []⟩ := by
        rw [Act.bind_ok (rotate_next hnext), happ]
        rfl
      rw [Act.bind_ok hboth]
      rfl

theorem isSpare_of {p : Option ℕ} (hp : p ≠ none) (h : s.content p = []) : s.isSpare p = true := by
  obtain ⟨i, rfl⟩ := Option.ne_none_iff_exists'.1 hp
  have hdata : (s.heap.get i).data = [] := h
  show ((s.heap.get i).data.length == 0) = true
  rw [hdata]
  rfl

/-- **The assertions at the top of an iteration.** -/
theorem Roles.atTop (hr : s.Roles) (hw : s.writer = .testing) :
    s.isSpare s.newBuffer1 = true ∧ s.isSpare s.newBuffer2 = true ∧ s.bufferToWrite = [] := by
  obtain ⟨h₁, h₂⟩ := hr.spare (hw ▸ rfl)
  exact ⟨isSpare_of h₁ hr.spareEmpty.1, isSpare_of h₂ hr.spareEmpty.2, hr.free (hw ▸ rfl)⟩

/-- **The assertions at the end of an iteration**: what is left of the batch is enough for the spare
buffers that are missing. -/
theorem Taken.recycling (ht : s.Taken) :
    s.newBuffer1 = none ∧ s.bufferToWrite.take 2 ≠ [] ∧
      (s.newBuffer2 = none → (s.bufferToWrite.take 2).dropLast ≠ []) := by
  have hpos := List.length_pos_of_ne_nil ht.nonempty
  refine ⟨ht.newBuffer1, fun hnil => ?_, fun h₂ hnil => ?_⟩
  · have hlen := congrArg List.length hnil
    rw [List.length_take, List.length_nil] at hlen
    omega
  · have htwo := ht.newBuffer2 h₂
    have hlen := congrArg List.length hnil
    rw [List.length_dropLast, List.length_take, List.length_nil] at hlen
    omega

theorem test_ok (hr : s.Roles) (hw : At .testing s) : (test s).val = .ok () := by
  obtain ⟨h₁, h₂, h₃⟩ := hr.atTop hw
  rw [test, Act.await_pos hw, Act.get_bind]
  cases s.running with
  | false => rfl
  | true =>
    rw [if_pos rfl, Act.check_pos _ h₁, Act.pure_bind, Act.check_pos _ h₂, Act.pure_bind,
      Act.check_pos _ h₃]
    rfl

theorem lock_ok (hw : At .locking s) : (lock s).val = .ok () := by
  rw [lock, Act.await_pos hw, Act.get_bind]
  split <;> rfl

theorem erase_ok (ht : s.Taken) (hw : At .swapped s) : (erase s).val = .ok () := by
  rw [erase, Act.await_pos hw, Act.get_bind, Act.check_pos _ ht.nonempty, Act.pure_bind]
  split <;> rfl

theorem write_ok (ht : s.Taken) (h : s.HasMore) : (write s).val = .ok () := by
  have hmem := List.getElem_mem h.2
  obtain ⟨i, hi⟩ := Option.ne_none_iff_exists'.1 fun hnone => ht.notNull (hnone ▸ hmem)
  have hjoin : s.bufferToWrite[s.index]?.join = some i := by
    rw [List.getElem?_eq_getElem h.2, hi]
    rfl
  rw [write, Act.await_pos h, Act.get_bind, hjoin, Act.need_some, Act.pure_bind]
  rfl

/-- **No step fails**, except for a record whose length is not an `int`. -/
theorem Safe.fails (hs : s.Safe) {fault : LoggerFault}
    (h : (op.exec s).val = .error (.fails fault)) :
    ∃ logline, op = .append logline ∧ 2 ^ 31 ≤ logline.length := by
  have hr := hs.roles
  cases op with
  | append logline =>
    refine ⟨logline, rfl, Nat.le_of_not_lt fun hint => ?_⟩
    have hok : (LogOp.exec (.append logline) s).val = .ok () := append_ok hr.current hint
    rw [hok] at h
    cases h
  | start | stop | join | setUp | wake =>
    obtain ⟨-, hx⟩ := Act.await_fails h
    cases hx
  | countDown =>
    obtain ⟨hw, hx⟩ := Act.await_fails h
    rw [Act.get_bind, Act.check_pos _ (hs.running hw)] at hx
    cases hx
  | test =>
    rw [LogOp.exec, test_ok hr (Act.await_fails h).1] at h
    cases h
  | lock =>
    rw [LogOp.exec, lock_ok (Act.await_fails h).1] at h
    cases h
  | erase =>
    have hw : s.writer = .swapped := (Act.await_fails h).1
    rw [LogOp.exec, erase_ok (hr.taken (hw ▸ rfl)) hw] at h
    cases h
  | write =>
    have hmore : s.HasMore := (Act.await_fails h).1
    rw [LogOp.exec, write_ok (hr.taken (hmore.1 ▸ rfl)) hmore] at h
    cases h
  | recycle =>
    have hwritten : s.HasWritten := (Act.await_fails h).1
    obtain ⟨s', hrecycle, -⟩ := recycle_apply (hr.taken (hwritten.1 ▸ rfl)) hwritten
    rw [LogOp.exec, hrecycle] at h
    cases h

end AsyncLogger

open AsyncLogger

theorem safe_of_run {calls : List (LogCall β)} {s : AsyncLogger β}
    (h : Run LogOp.exec (fun _ _ => True) AsyncLogger.init calls s) : s.Safe := by
  refine h.invariant (I := fun _ s => s.Safe) .init ?_
  intro calls s op hs _ hok
  exact hs.step (stepped op (fun hw => hs.roles.taken (hw ▸ rfl)) hok)

/-- **The roles of the buffers hold in every run** of appending threads, the writer and the thread
that starts and stops it: no step fails, be it by an assertion or through a null pointer, for a
record with a length of type `int`; between the critical sections there is a current buffer, and no
buffer has two roles; at the top of an iteration both spare buffers are there and empty and there is
no batch; and while the batch is written, what will be left of it is enough for the spare buffers
that are missing. -/
theorem assertions_hold {calls : List (LogCall β)} {s : AsyncLogger β}
    (h : Run LogOp.exec (fun _ _ => True) AsyncLogger.init calls s) :
    (∀ op fault, (LogOp.exec op s).val = .error (.fails fault) →
      ∃ logline, op = .append logline ∧ 2 ^ 31 ≤ logline.length) ∧
    s.currentBuffer ≠ none ∧ (∀ i, s.pointers.count (some i) ≤ 1) ∧
    (s.writer = .testing →
      s.isSpare s.newBuffer1 = true ∧ s.isSpare s.newBuffer2 = true ∧ s.bufferToWrite = []) ∧
    (s.writer = .writing → s.newBuffer1 = none ∧ s.bufferToWrite.take 2 ≠ [] ∧
      (s.newBuffer2 = none → (s.bufferToWrite.take 2).dropLast ≠ [])) := by
  have hs := safe_of_run h
  have hr := hs.roles
  exact ⟨fun op fault => hs.fails, hr.current, hr.refers.distinct, hr.atTop,
    fun hw => (hr.taken (hw ▸ rfl)).recycling⟩

/-- A batch is being written, and a record has come in the meantime. -/
theorem assertions_hold_of_write :
    ∃ calls s, Run (LogOp.exec (β := ℕ)) (fun _ _ => True) AsyncLogger.init calls s ∧
      s.writer = .writing ∧
      (∀ op fault, (LogOp.exec op s).val = .error (.fails fault) →
        ∃ logline, op = .append logline ∧ 2 ^ 31 ≤ logline.length) ∧
      s.currentBuffer ≠ none ∧ (∀ i, s.pointers.count (some i) ≤ 1) ∧
      (s.writer = .testing →
        s.isSpare s.newBuffer1 = true ∧ s.isSpare s.newBuffer2 = true ∧ s.bufferToWrite = []) ∧
      (s.writer = .writing → s.newBuffer1 = none ∧ s.bufferToWrite.take 2 ≠ [] ∧
        (s.newBuffer2 = none → (s.bufferToWrite.take 2).dropLast ≠ [])) := by
  have hrun : Run (LogOp.exec (β := ℕ)) (fun _ _ => True) AsyncLogger.init _ _ :=
    run_replay [.append [1, 2], .start, .countDown, .setUp, .test, .lock, .wake, .append [3],
      .erase, .write] (by decide +kernel)
  exact ⟨_, _, hrun, by decide +kernel, assertions_hold hrun⟩

end Cannet.Base
