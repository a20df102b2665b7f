import Cannet.Base.AsyncLogger

/-!
# What a step of the logger does

`Stepped s op es s'` lists the ways in which a step `op` is made from `s`: what must hold, what is
done (`es`) and where it leads (`s'`). `stepped` says that there is no other way, as long as the
writer holds the buffers it should hold when it recycles them (`Taken`).
-/

namespace Cannet.Base

open Foundations AsyncLogger

variable {β : Type}

namespace AsyncLogger

/-- What the writer holds between the critical section and the end of its iteration. -/
structure Taken (s : AsyncLogger β) : Prop where
  newBuffer1 : s.newBuffer1 = none
  nonempty : s.bufferToWrite ≠ []
  notNull : none ∉ s.bufferToWrite
  newBuffer2 : s.newBuffer2 = none → 2 ≤ s.bufferToWrite.length

end AsyncLogger

inductive Stepped (s : AsyncLogger β) :
    LogOp β → List (LogEvent β) → AsyncLogger β → Prop
  | appendHere {logline : List β} {i : ℕ} {b : LargeBuffer β} (hcur : s.currentBuffer = some i)
    (havail : (s.heap.get i).avail > logline.length)
    (hb : (s.heap.get i).append logline = some b) :
    Stepped s (.append logline) [.appended logline] { s with heap := s.heap.set i b }
  | appendNext {logline : List β} {i j : ℕ} {b : LargeBuffer β} (hcur : s.currentBuffer = some i)
    (hnext : s.nextBuffer = some j) (hb : (s.heap.get j).append logline = some b) :
    Stepped s (.append logline) [.appended logline]
      { s with
        heap := s.heap.set j b
        buffers := s.buffers ++ [some i]
        currentBuffer := some j
        nextBuffer := none }
  | appendNew {logline : List β} {i : ℕ} {b : LargeBuffer β} (hcur : s.currentBuffer = some i)
    (hnext : s.nextBuffer = none) (hb : FixedBuffer.empty.append logline = some b) :
    Stepped s (.append logline) [.appended logline]
      { s with
        heap := (s.heap.alloc .empty).set s.heap.made b
        buffers := s.buffers ++ [some i]
        currentBuffer := some s.heap.made }
  | start (h : s.writer = .none) :
    Stepped s .start [] { s with running := true, writer := .starting }
  | stop (h : s.Started) :
    Stepped s .stop [] { s with running := false, stopper := .joining }
  | join (h : s.Joinable) :
    Stepped s .join [] { s with stopper := .returned }
  | countDown (h : s.writer = .starting) : Stepped s .countDown [] { s with writer := .settingUp }
  | setUp (h : s.writer = .settingUp) :
    Stepped s .setUp []
      { s with
        heap := (s.heap.alloc .empty).alloc .empty
        newBuffer1 := some s.heap.made
        newBuffer2 := some (s.heap.made + 1)
        bufferToWrite := []
        writer := .testing }
  | go (h : s.writer = .testing) (hrunning : s.running = true) :
    Stepped s .test [] { s with writer := .locking }
  | leave (h : s.writer = .testing) (hrunning : s.running = false) :
    Stepped s .test [] { s with writer := .returned }
  | wait (h : s.writer = .locking) (hbuffers : s.buffers = []) :
    Stepped s .lock [] { s with writer := .waiting }
  | swap {op : LogOp β} (h : op = .lock ∧ s.writer = .locking ∨ op = .wake ∧ s.writer = .waiting) :
    Stepped s op [.swapped (s.swapped.bufferToWrite.map s.content)] s.swapped
  | erase (h : s.writer = .swapped) :
    Stepped s .erase []
      { s with
        bufferToWrite :=
          if s.bufferToWrite.length > 25 then s.bufferToWrite.take 2 else s.bufferToWrite
        index := 0
        writer := .writing }
  | write {i : ℕ} (h : s.writer = .writing) (hi : s.bufferToWrite[s.index]? = some (some i)) :
    Stepped s .write [.written (s.heap.get i).data] { s with index := s.index + 1 }
  | recycleOne {l : List (Option ℕ)} {i : ℕ} (h : s.writer = .writing)
    (hindex : s.bufferToWrite.length ≤ s.index) (htake : s.bufferToWrite.take 2 = l ++ [some i])
    (h₂ : s.newBuffer2 ≠ none) :
    Stepped s .recycle []
      { s with
        heap := s.heap.set i .empty
        newBuffer1 := some i
        bufferToWrite := []
        writer := .testing }
  | recycleTwo {i j : ℕ} (h : s.writer = .writing) (hindex : s.bufferToWrite.length ≤ s.index)
    (htake : s.bufferToWrite.take 2 = [some j, some i]) (h₂ : s.newBuffer2 = none) :
    Stepped s .recycle []
      { s with
        heap := (s.heap.set i .empty).set j .empty
        newBuffer1 := some i
        newBuffer2 := some j
        bufferToWrite := []
        writer := .testing }

/-! ## There is no other way -/

section Inversion

variable {s : AsyncLogger β}

theorem appendCurrent_ok {logline : List β} {i : ℕ} (hcur : s.currentBuffer = some i)
    (h : (appendCurrent logline s).val = .ok ()) :
    ∃ b, (s.heap.get i).append logline = some b ∧
      appendCurrent logline s = ⟨.ok (), { s with heap := s.heap.set i b }, []⟩ := by
  have hneed : (Act.need (.fails .nullDereference) s.currentBuffer : LoggerAct β ℕ) = pure i := by
    rw [hcur, Act.need_some]
  rw [appendCurrent, Act.get_bind, hneed, Act.pure_bind] at h ⊢
  cases hb : (s.heap.get i).append logline with
  | none =>
    rw [hb, Act.need_none, Act.abort_bind] at h
    cases h
  | some b =>
    rw [Act.need_some, Act.pure_bind]
    exact ⟨b, rfl, rfl⟩

theorem rotate_next {j : ℕ} (hnext : s.nextBuffer = some j) :
    rotate s = ⟨.ok (), { s with
      buffers := s.buffers ++ [s.currentBuffer]
      currentBuffer := some j
      nextBuffer := none }, []⟩ := by
  rw [rotate, Act.modify_bind, Act.get_bind]
  simp only [hnext]
  rfl

theorem rotate_new (hnext : s.nextBuffer = none) :
    rotate s = ⟨.ok (), { s with
      heap := s.heap.alloc .empty
      buffers := s.buffers ++ [s.currentBuffer]
      currentBuffer := some s.heap.made }, []⟩ := by
  rw [rotate, Act.modify_bind, Act.get_bind]
  simp only [hnext]
  rfl

theorem append_stepped {logline : List β} (h : (AsyncLogger.append logline s).val = .ok ()) :
    Stepped s (.append logline) (AsyncLogger.append logline s).trace
      (AsyncLogger.append logline s).state := by
  rw [AsyncLogger.append, Act.get_bind] at h ⊢
  cases hcur : s.currentBuffer with
  | none =>
    rw [hcur, Act.need_none, Act.abort_bind] at h
    cases h
  | some i =>
    rw [hcur, Act.need_some, Act.pure_bind] at h
    rw [Act.need_some, Act.pure_bind]
    by_cases havail : (s.heap.get i).avail > logline.length
    · rw [if_pos havail] at h ⊢
      obtain ⟨_, happ, -⟩ := Act.bind_returned h
      obtain ⟨b, hb, heq⟩ := appendCurrent_ok hcur (congrArg Outcome.val happ)
      rw [Act.bind_ok heq]
      exact .appendHere hcur havail hb
    · rw [if_neg havail] at h ⊢
      obtain ⟨_, hboth, -⟩ := Act.bind_returned h
      cases hnext : s.nextBuffer with
      | none =>
        have hrest := Act.bind_ok (rotate_new hnext) (fun _ => appendCurrent logline)
        rw [hrest, Outcome.after_nil] at hboth
        obtain ⟨b, hb, heq⟩ := appendCurrent_ok rfl (congrArg Outcome.val hboth)
        rw [Act.bind_ok (hrest.trans (congrArg _ heq)), hcur]
        rw [Store.get_alloc_self s.heap FixedBuffer.empty] at hb
        exact .appendNew hcur hnext hb
      | some j =>
        have hrest := Act.bind_ok (rotate_next hnext) (fun _ => appendCurrent logline)
        rw [hrest, Outcome.after_nil] at hboth
        obtain ⟨b, hb, heq⟩ := appendCurrent_ok rfl (congrArg Outcome.val hboth)
        rw [Act.bind_ok (hrest.trans (congrArg _ heq)), hcur]
        exact .appendNext hcur hnext hb

theorem test_stepped (h : (test s).val = .ok ()) :
    Stepped s .test (test s).trace (test s).state := by
  obtain ⟨hat, hx⟩ := Act.await_ok h
  rw [Act.get_bind] at hx
  rw [test, Act.await_pos hat, Act.get_bind]
  cases hrunning : s.running with
  | false => exact .leave hat hrunning
  | true =>
    rw [hrunning, if_pos rfl] at hx
    obtain ⟨h₁, hx⟩ := Act.check_bind_ok hx
    obtain ⟨h₂, hx⟩ := Act.check_bind_ok hx
    obtain ⟨h₃, -⟩ := Act.check_bind_ok hx
    rw [if_pos rfl, Act.check_pos _ h₁, Act.pure_bind, Act.check_pos _ h₂, Act.pure_bind,
      Act.check_pos _ h₃]
    exact .go hat hrunning

theorem lock_stepped (h : (lock s).val = .ok ()) :
    Stepped s .lock (lock s).trace (lock s).state := by
  obtain ⟨hat, -⟩ := Act.await_ok h
  rw [lock, Act.await_pos hat, Act.get_bind]
  by_cases hbuffers : s.buffers = []
  · rw [if_pos hbuffers]
    exact .wait hat hbuffers
  · rw [if_neg hbuffers]
    exact .swap (.inl ⟨rfl, hat⟩)

theorem erase_stepped (h : (erase s).val = .ok ()) :
    Stepped s .erase (erase s).trace (erase s).state := by
  obtain ⟨hat, hx⟩ := Act.await_ok h
  rw [Act.get_bind] at hx
  obtain ⟨hne, -⟩ := Act.check_bind_ok hx
  rw [erase, Act.await_pos hat, Act.get_bind, Act.check_pos _ hne, Act.pure_bind]
  have hs := Stepped.erase hat
  by_cases hlong : s.bufferToWrite.length > 25
  · rw [if_pos hlong] at hs ⊢
    exact hs
  · rw [if_neg hlong] at hs ⊢
    exact hs

theorem write_stepped (h : (write s).val = .ok ()) :
    Stepped s .write (write s).trace (write s).state := by
  obtain ⟨hmore, hx⟩ := Act.await_ok h
  rw [Act.get_bind] at hx
  rw [write, Act.await_pos hmore, Act.get_bind]
  cases hi : s.bufferToWrite[s.index]?.join with
  | none =>
    rw [hi, Act.need_none, Act.abort_bind] at hx
    cases hx
  | some i => exact .write hmore.1 (Option.join_eq_some_iff.1 hi)

/-- The list of the first two buffers, of a list that is not empty. -/
theorem take_two (h : s.bufferToWrite ≠ []) (hnull : none ∉ s.bufferToWrite) :
    (∃ i, s.bufferToWrite.take 2 = [some i]) ∨
      ∃ i j, s.bufferToWrite.take 2 = [some j, some i] := by
  match hl : s.bufferToWrite with
  | [] => exact absurd hl h
  | [some i] => exact .inl ⟨i, rfl⟩
  | some j :: some i :: l => exact .inr ⟨i, j, rfl⟩
  | none :: l => simp [hl] at hnull
  | some j :: none :: l => simp [hl] at hnull

theorem popBack_apply {l : List (Option ℕ)} {i : ℕ} (hl : s.bufferToWrite = l ++ [some i]) :
    popBack s = ⟨.ok i, { s with bufferToWrite := l, heap := s.heap.set i .empty }, []⟩ := by
  have hne : s.bufferToWrite ≠ [] := by simp [hl]
  have hlast : s.bufferToWrite.getLast?.join = some i := by simp [hl]
  have hinit : s.bufferToWrite.dropLast = l := by simp [hl]
  rw [popBack, Act.get_bind, Act.check_pos _ hne, Act.pure_bind, hlast, Act.need_some,
    Act.pure_bind, Act.modify_bind, hinit]
  rfl

theorem refill1_apply {l : List (Option ℕ)} {i : ℕ} (h₁ : s.newBuffer1 = none)
    (hl : s.bufferToWrite = l ++ [some i]) :
    refill1 s = ⟨.ok (), { s with
      bufferToWrite := l
      heap := s.heap.set i .empty
      newBuffer1 := some i }, []⟩ := by
  have hnull : s.newBuffer1.isNone = true := by rw [h₁, Option.isNone_none]
  rw [refill1, Act.get_bind, if_pos hnull, Act.bind_ok (popBack_apply hl)]
  rfl

theorem refill2_apply {l : List (Option ℕ)} {i : ℕ} (h₂ : s.newBuffer2 = none)
    (hl : s.bufferToWrite = l ++ [some i]) :
    refill2 s = ⟨.ok (), { s with
      bufferToWrite := l
      heap := s.heap.set i .empty
      newBuffer2 := some i }, []⟩ := by
  have hnull : s.newBuffer2.isNone = true := by rw [h₂, Option.isNone_none]
  rw [refill2, Act.get_bind, if_pos hnull, Act.bind_ok (popBack_apply hl)]
  rfl

theorem refill2_filled (h₂ : s.newBuffer2 ≠ none) : refill2 s = ⟨.ok (), s, []⟩ := by
  rw [refill2, Act.get_bind, if_neg (by simpa using h₂)]
  rfl

/-- `resize(2)` where the vector is longer. -/
theorem resize_apply : (if s.bufferToWrite.length > 2 then
      (Act.modify fun s => { s with bufferToWrite := s.bufferToWrite.take 2 } : LoggerAct β Unit)
    else pure ()) s = ⟨.ok (), { s with bufferToWrite := s.bufferToWrite.take 2 }, []⟩ := by
  split
  · rfl
  · rename_i hshort
    rw [List.take_of_length_le (by omega)]
    rfl

/-- The end of an iteration is reached: there is a buffer for each spare one that is missing. -/
theorem recycle_apply (ht : s.Taken) (h : s.HasWritten) :
    ∃ s', recycle s = ⟨.ok (), s', []⟩ ∧ Stepped s .recycle [] s' := by
  rw [recycle, Act.await_pos h, Act.get_bind, Act.bind_ok resize_apply]
  rcases take_two ht.nonempty ht.notNull with ⟨i, htake⟩ | ⟨i, j, htake⟩
  · have h₂ : s.newBuffer2 ≠ none := by
      intro hnone
      have hlen := congrArg List.length htake
      have htwo := ht.newBuffer2 hnone
      simp only [List.length_take, List.length_singleton] at hlen
      omega
    have hfirst := refill1_apply (s := { s with bufferToWrite := [some i] }) (l := [])
      ht.newBuffer1 rfl
    have hsecond := refill2_filled (s := { s with
      bufferToWrite := [], heap := s.heap.set i .empty, newBuffer1 := some i }) h₂
    rw [htake, Act.bind_ok hfirst, Act.bind_ok hsecond]
    exact ⟨_, rfl, .recycleOne (l := []) h.1 h.2 htake h₂⟩
  · have hfirst := refill1_apply (s := { s with bufferToWrite := [some j, some i] })
      (l := [some j]) ht.newBuffer1 rfl
    rw [htake, Act.bind_ok hfirst]
    by_cases h₂ : s.newBuffer2 = none
    · have hsecond := refill2_apply (s := { s with
        bufferToWrite := [some j], heap := s.heap.set i .empty, newBuffer1 := some i }) (l := [])
        h₂ rfl
      rw [Act.bind_ok hsecond]
      exact ⟨_, rfl, .recycleTwo h.1 h.2 htake h₂⟩
    · have hsecond := refill2_filled (s := { s with
        bufferToWrite := [some j], heap := s.heap.set i .empty, newBuffer1 := some i }) h₂
      rw [Act.bind_ok hsecond]
      exact ⟨_, rfl, .recycleOne (l := [some j]) h.1 h.2 htake h₂⟩

/-- **Every step is one of those listed.** -/
theorem stepped (op : LogOp β) (htaken : s.writer = .writing → s.Taken)
    (h : (op.exec s).val = .ok ()) : Stepped s op (op.exec s).trace (op.exec s).state := by
  cases op with
  | append logline => exact append_stepped h
  | start =>
    obtain ⟨hat, -⟩ := Act.await_ok h
    rw [LogOp.exec, AsyncLogger.start, Act.await_pos hat]
    exact .start hat
  | stop =>
    obtain ⟨hstarted, -⟩ := Act.await_ok h
    rw [LogOp.exec, AsyncLogger.stop, Act.await_pos hstarted]
    exact .stop hstarted
  | join =>
    obtain ⟨hjoin, -⟩ := Act.await_ok h
    rw [LogOp.exec, AsyncLogger.join, Act.await_pos hjoin]
    exact .join hjoin
  | countDown =>
    obtain ⟨hat, hx⟩ := Act.await_ok h
    rw [Act.get_bind] at hx
    obtain ⟨hrunning, -⟩ := Act.check_bind_ok hx
    rw [LogOp.exec, AsyncLogger.countDown, Act.await_pos hat, Act.get_bind,
      Act.check_pos _ hrunning]
    exact .countDown hat
  | setUp =>
    obtain ⟨hat, -⟩ := Act.await_ok h
    rw [LogOp.exec, AsyncLogger.setUp, Act.await_pos hat]
    exact .setUp hat
  | test => exact test_stepped h
  | lock => exact lock_stepped h
  | wake =>
    obtain ⟨hat, -⟩ := Act.await_ok h
    rw [LogOp.exec, AsyncLogger.wake, Act.await_pos hat]
    exact .swap (.inr ⟨rfl, hat⟩)
  | erase => exact erase_stepped h
  | write => exact write_stepped h
  | recycle =>
    obtain ⟨hwritten, -⟩ := Act.await_ok h
    obtain ⟨s', heq, hs⟩ := recycle_apply (htaken hwritten.1) hwritten
    rw [LogOp.exec, heq]
    exact hs

end Inversion

end Cannet.Base
