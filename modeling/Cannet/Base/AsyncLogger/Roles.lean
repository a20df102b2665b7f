import Cannet.Base.AsyncLogger.Steps

/-!
# The roles of the buffers

A buffer is the current one, the next one, full, taken by the writer, or spare, and in one of
these roles only: no two of the logger's pointers refer to the same buffer. `Roles` says so, and
says what each role promises. Every step keeps it (`Roles.step`).
-/

namespace Cannet.Base

open Foundations AsyncLogger

variable {β : Type}

/-- The writer is between the critical section and the end of its iteration. -/
def Writer.hasBatch : Writer → Bool
  | swapped | writing => true
  | _ => false

/-- The writer is between its test of `running_` and the critical section, or at the test. -/
def Writer.hasSpares : Writer → Bool
  | testing | locking | waiting => true
  | _ => false

namespace AsyncLogger

/-- All pointers to buffers. -/
def pointers (s : AsyncLogger β) : List (Option ℕ) :=
  s.currentBuffer :: s.nextBuffer :: s.newBuffer1 :: s.newBuffer2 :: (s.buffers ++ s.bufferToWrite)

/-- The invariant of the buffers. -/
structure Roles (s : AsyncLogger β) : Prop where
  refers : s.heap.Refers s.pointers
  current : s.currentBuffer ≠ none
  notNull : none ∉ s.buffers
  /-- If the next buffer is in use, a full one has been put away. -/
  next : s.nextBuffer = none → s.buffers ≠ []
  nextEmpty : s.content s.nextBuffer = []
  spare : s.writer.hasSpares = true → s.newBuffer1 ≠ none ∧ s.newBuffer2 ≠ none
  spareEmpty : s.content s.newBuffer1 = [] ∧ s.content s.newBuffer2 = []
  taken : s.writer.hasBatch = true → s.Taken
  free : s.writer.hasBatch = false → s.bufferToWrite = []

variable {s s' : AsyncLogger β} {op : LogOp β} {es : List (LogEvent β)}

section Content

variable {i : ℕ} {b : LargeBuffer β} {p : Option ℕ}

theorem content_set (h : p ≠ some i) :
    (s.heap.set i b).read [] FixedBuffer.data p = s.content p := Store.read_set_of_ne h

theorem content_set_self : (s.heap.set i b).read [] FixedBuffer.data (some i) = b.data :=
  congrArg FixedBuffer.data (Store.get_set_self ..)

theorem content_alloc (h : ∀ i, p = some i → i < s.heap.made) :
    (s.heap.alloc b).read [] FixedBuffer.data p = s.content p := Store.read_alloc h

/-- A buffer that is reset is empty; one that is empty stays so. -/
theorem read_reset {m : Store (LargeBuffer β)} (h : m.read [] FixedBuffer.data p = []) :
    (m.set i .empty).read [] FixedBuffer.data p = [] := by
  by_cases hp : p = some i
  · subst hp
    exact congrArg FixedBuffer.data (Store.get_set_self ..)
  · rw [Store.read_set_of_ne hp, h]

theorem read_alloc_empty {m : Store (LargeBuffer β)} (h : m.read [] FixedBuffer.data p = []) :
    (m.alloc .empty).read [] FixedBuffer.data p = [] := by
  by_cases hp : p = some m.made
  · subst hp
    exact congrArg FixedBuffer.data (Store.get_alloc_self ..)
  · cases p with
    | none => rfl
    | some j =>
      have hj : j ≠ m.made := fun hj => hp (congrArg some hj)
      exact (congrArg FixedBuffer.data (Function.update_of_ne hj _ _)).trans h

end Content

/-- The next buffer is in use: the second spare buffer takes its place. -/
theorem swapped_of_none (h : s.nextBuffer = none) :
    s.swapped = { s with
      bufferToWrite := s.buffers ++ [s.currentBuffer]
      buffers := s.bufferToWrite
      currentBuffer := s.newBuffer1
      newBuffer1 := none
      nextBuffer := s.newBuffer2
      newBuffer2 := none
      writer := .swapped } := by
  rw [AsyncLogger.swapped, h]
  rfl

theorem swapped_of_some {j : ℕ} (h : s.nextBuffer = some j) :
    s.swapped = { s with
      bufferToWrite := s.buffers ++ [s.currentBuffer]
      buffers := s.bufferToWrite
      currentBuffer := s.newBuffer1
      newBuffer1 := none
      writer := .swapped } := by
  rw [AsyncLogger.swapped, h]
  cases s
  cases h
  rfl

namespace Roles

/-- No other pointer refers to the current buffer. -/
theorem current_notMem (hr : s.Roles) {i : ℕ} (hcur : s.currentBuffer = some i) :
    some i ∉ s.nextBuffer :: s.newBuffer1 :: s.newBuffer2 :: (s.buffers ++ s.bufferToWrite) := by
  have hd := hr.refers.distinct
  rw [pointers, hcur] at hd
  exact hd.notMem

/-- No other pointer refers to the next buffer. -/
theorem next_notMem (hr : s.Roles) {j : ℕ} (hnext : s.nextBuffer = some j) :
    some j ∉ s.currentBuffer :: s.newBuffer1 :: s.newBuffer2 :: (s.buffers ++ s.bufferToWrite) := by
  refine Distinct.notMem (hr.refers.distinct.mono fun i => ?_)
  rw [pointers, hnext]
  simp only [List.count_cons]
  omega

/-- No buffer that the writer has taken is in use by the front end. -/
theorem batch_notMem (hr : s.Roles) {i : ℕ} (hi : some i ∈ s.bufferToWrite) :
    some i ∉ s.currentBuffer :: s.buffers := by
  have hone := hr.refers.distinct i
  have hpos := List.count_pos_iff.2 hi
  simp only [pointers, List.count_cons, List.count_append] at hone
  refine List.count_eq_zero.1 ?_
  rw [List.count_cons]
  omega

theorem start : (AsyncLogger.init : AsyncLogger β).Roles where
  refers := by
    have hnone : (⟨0, fun _ => .empty⟩ : Store (LargeBuffer β)).Refers [none, none] :=
      ⟨fun i => by simp, by simp⟩
    have htwo := (hnone.alloc .empty).alloc .empty
    have hrefers : Store.Refers _ (AsyncLogger.init : AsyncLogger β).pointers :=
      htwo.mono fun i => by
        simp only [pointers, AsyncLogger.init, List.append_nil, List.count_cons, List.count_nil,
          Store.made_alloc, Nat.zero_add]
        omega
    exact ⟨hrefers.distinct, hrefers.made⟩
  current := Option.some_ne_none 0
  notNull := List.not_mem_nil
  next h := by cases h
  nextEmpty := rfl
  spare h := by cases h
  spareEmpty := ⟨rfl, rfl⟩
  taken h := by cases h
  free _ := rfl

/-- The threads go on, and no buffer changes its role. -/
theorem goto (hr : s.Roles) (running : Bool) (stopper : Stopper) (index : ℕ) {w : Writer}
    (hspare : w.hasSpares = true → s.writer.hasSpares = true)
    (hbatch : w.hasBatch = s.writer.hasBatch) :
    Roles { s with running := running, stopper := stopper, index := index, writer := w } :=
  { hr with
    spare := fun hw => hr.spare (hspare hw)
    taken := fun hw => by
      have ht := hr.taken (hbatch.symm.trans hw)
      exact ⟨ht.1, ht.2, ht.3, ht.4⟩
    free := fun hw => hr.free (hbatch.symm.trans hw) }

/-- A record is put into the current buffer. -/
theorem appendHere (hr : s.Roles) {i : ℕ} (hcur : s.currentBuffer = some i) (b : LargeBuffer β) :
    Roles { s with heap := s.heap.set i b } := by
  have hi := hr.current_notMem hcur
  simp only [List.mem_cons, not_or] at hi
  obtain ⟨hnext, h₁, h₂, -⟩ := hi
  exact { hr with
    refers := hr.refers.set i b
    nextEmpty := (content_set (Ne.symm hnext)).trans hr.nextEmpty
    spareEmpty := ⟨(content_set (Ne.symm h₁)).trans hr.spareEmpty.1,
      (content_set (Ne.symm h₂)).trans hr.spareEmpty.2⟩
    taken := fun hw => ⟨(hr.taken hw).1, (hr.taken hw).2, (hr.taken hw).3, (hr.taken hw).4⟩ }

/-- The full buffer is put away, and the record goes into the next one. -/
theorem appendNext (hr : s.Roles) {i j : ℕ} (hcur : s.currentBuffer = some i)
    (hnext : s.nextBuffer = some j) (b : LargeBuffer β) :
    Roles { s with
      heap := s.heap.set j b
      buffers := s.buffers ++ [some i]
      currentBuffer := some j
      nextBuffer := none } := by
  have hj := hr.next_notMem hnext
  simp only [List.mem_cons, not_or] at hj
  obtain ⟨-, h₁, h₂, -⟩ := hj
  exact
  { refers := (hr.refers.mono fun k => by
      simp only [pointers, hcur, hnext, List.count_cons, List.count_append, List.count_nil,
        Option.none_beq_some, Bool.false_eq_true, if_false]
      omega).set j b
    current := Option.some_ne_none j
    notNull := by simpa using hr.notNull
    next := fun _ => by simp
    nextEmpty := rfl
    spare := hr.spare
    spareEmpty := ⟨(content_set (Ne.symm h₁)).trans hr.spareEmpty.1,
      (content_set (Ne.symm h₂)).trans hr.spareEmpty.2⟩
    taken := fun hw => ⟨(hr.taken hw).1, (hr.taken hw).2, (hr.taken hw).3, (hr.taken hw).4⟩
    free := hr.free }

/-- The full buffer is put away, and the record goes into a new one. -/
theorem appendNew (hr : s.Roles) {i : ℕ} (hcur : s.currentBuffer = some i)
    (hnext : s.nextBuffer = none) (b : LargeBuffer β) :
    Roles { s with
      heap := (s.heap.alloc .empty).set s.heap.made b
      buffers := s.buffers ++ [some i]
      currentBuffer := some s.heap.made } := by
  have hne : ∀ p ∈ s.pointers, p ≠ some s.heap.made := by
    rintro p hp rfl
    exact Nat.lt_irrefl _ (hr.refers.made _ hp)
  have h₁ : s.newBuffer1 ≠ some s.heap.made := hne _ (by simp [pointers])
  have h₂ : s.newBuffer2 ≠ some s.heap.made := hne _ (by simp [pointers])
  exact
  { refers := ((hr.refers.alloc .empty).mono fun k => by
      simp only [pointers, hcur, hnext, List.count_cons, List.count_append, List.count_nil]
      omega).set s.heap.made b
    current := Option.some_ne_none _
    notNull := by simpa using hr.notNull
    next := fun _ => by simp
    nextEmpty := by rw [hnext]; rfl
    spare := hr.spare
    spareEmpty := ⟨(Store.read_set_of_ne h₁).trans (read_alloc_empty hr.spareEmpty.1),
      (Store.read_set_of_ne h₂).trans (read_alloc_empty hr.spareEmpty.2)⟩
    taken := fun hw => ⟨(hr.taken hw).1, (hr.taken hw).2, (hr.taken hw).3, (hr.taken hw).4⟩
    free := hr.free }

/-- The writer makes its spare buffers. -/
theorem setUp (hr : s.Roles) :
    Roles { s with
      heap := (s.heap.alloc .empty).alloc .empty
      newBuffer1 := some s.heap.made
      newBuffer2 := some (s.heap.made + 1)
      bufferToWrite := []
      writer := .testing } where
  refers := ((hr.refers.alloc .empty).alloc .empty).mono fun k => by
    simp only [pointers, Store.made_alloc, List.count_cons, List.count_append, List.count_nil]
    omega
  current := hr.current
  notNull := hr.notNull
  next := hr.next
  nextEmpty := read_alloc_empty (read_alloc_empty hr.nextEmpty)
  spare _ := ⟨Option.some_ne_none _, Option.some_ne_none _⟩
  spareEmpty := by
    refine ⟨?_, congrArg FixedBuffer.data (Store.get_alloc_self ..)⟩
    exact read_alloc_empty (congrArg FixedBuffer.data (Store.get_alloc_self ..))
  taken h := by cases h
  free _ := rfl

/-- The writer takes the full buffers and leaves its spare ones. -/
theorem swapped (hr : s.Roles) (hw : s.writer.hasSpares = true) (hfree : s.bufferToWrite = []) :
    s.swapped.Roles := by
  obtain ⟨h₁, h₂⟩ := hr.spare hw
  have hnil : none ∉ s.bufferToWrite := by simp [hfree]
  have hne : s.buffers ++ [s.currentBuffer] ≠ [] := by simp
  have hfull : none ∉ s.buffers ++ [s.currentBuffer] := by
    simpa using ⟨hr.notNull, Ne.symm hr.current⟩
  cases hnext : s.nextBuffer with
  | none =>
    have hlength : 2 ≤ (s.buffers ++ [s.currentBuffer]).length := by
      have hpos := List.length_pos_of_ne_nil (hr.next hnext)
      rw [List.length_append, List.length_singleton]
      omega
    rw [swapped_of_none hnext]
    exact
    { refers := hr.refers.mono fun k => by
        simp only [pointers, hfree, hnext, List.nil_append, List.append_nil, List.count_cons,
          List.count_append, List.count_nil, Option.none_beq_some, Bool.false_eq_true, if_false]
        omega
      current := h₁
      notNull := hnil
      next := fun h => absurd h h₂
      nextEmpty := hr.spareEmpty.2
      spare := fun h => by cases h
      spareEmpty := ⟨rfl, rfl⟩
      taken := fun _ => ⟨rfl, hne, hfull, fun _ => hlength⟩
      free := fun h => by cases h }
  | some j =>
    rw [swapped_of_some hnext]
    exact
    { refers := hr.refers.mono fun k => by
        simp only [pointers, hfree, List.nil_append, List.append_nil, List.count_cons,
          List.count_append, List.count_nil, Option.none_beq_some, Bool.false_eq_true, if_false]
        omega
      current := h₁
      notNull := hnil
      next := fun h => absurd (hnext.symm.trans h) (Option.some_ne_none j)
      nextEmpty := hr.nextEmpty
      spare := fun h => by cases h
      spareEmpty := ⟨rfl, hr.spareEmpty.2⟩
      taken := fun _ => ⟨rfl, hne, hfull, fun h => absurd h h₂⟩
      free := fun h => by cases h }

/-- A batch that is too long is cut. -/
theorem erase (hr : s.Roles) (hw : s.writer.hasBatch = true) :
    Roles { s with
      bufferToWrite :=
        if s.bufferToWrite.length > 25 then s.bufferToWrite.take 2 else s.bufferToWrite
      index := 0
      writer := .writing } := by
  have ht := hr.taken hw
  have hcut :
      (if s.bufferToWrite.length > 25 then s.bufferToWrite.take 2 else s.bufferToWrite).Sublist
        s.bufferToWrite := by
    split
    · exact List.take_sublist 2 _
    · exact List.Sublist.refl _
  have hlength : s.bufferToWrite.length ≤
      (if s.bufferToWrite.length > 25 then s.bufferToWrite.take 2 else s.bufferToWrite).length ∨
      (if s.bufferToWrite.length > 25 then s.bufferToWrite.take 2 else s.bufferToWrite).length =
        2 := by
    split
    · rw [List.length_take]
      omega
    · exact .inl (Nat.le_refl _)
  generalize (if s.bufferToWrite.length > 25 then s.bufferToWrite.take 2 else s.bufferToWrite) = cut
    at hcut hlength ⊢
  have hpos := List.length_pos_of_ne_nil ht.nonempty
  exact { hr with
    refers := hr.refers.mono fun k => by
      have := hcut.count_le (some k)
      simp only [pointers, List.count_cons, List.count_append]
      omega
    spare := fun h => by cases h
    taken := fun _ => ⟨ht.newBuffer1, fun hnil => by
        subst hnil
        simp only [List.length_nil] at hlength
        omega, fun hnull => ht.notNull (hcut.subset hnull), fun h₂ => by
        have htwo := ht.newBuffer2 h₂
        show 2 ≤ cut.length
        omega⟩
    free := fun h => by cases h }

/-- The writer keeps a buffer it has written as a spare one. -/
theorem recycleOne (hr : s.Roles) {l : List (Option ℕ)} {i : ℕ}
    (htake : s.bufferToWrite.take 2 = l ++ [some i]) (h₂ : s.newBuffer2 ≠ none) :
    Roles { s with
      heap := s.heap.set i .empty
      newBuffer1 := some i
      bufferToWrite := []
      writer := .testing } where
  refers := (hr.refers.mono fun k => by
    have hle := (List.take_sublist 2 s.bufferToWrite).count_le (some k)
    rw [htake] at hle
    simp only [pointers, List.count_cons, List.count_append, List.count_nil] at hle ⊢
    omega).set i .empty
  current := hr.current
  notNull := hr.notNull
  next := hr.next
  nextEmpty := read_reset hr.nextEmpty
  spare _ := ⟨Option.some_ne_none i, h₂⟩
  spareEmpty := ⟨content_set_self, read_reset hr.spareEmpty.2⟩
  taken h := by cases h
  free _ := rfl

/-- The writer keeps two buffers it has written. -/
theorem recycleTwo (hr : s.Roles) {i j : ℕ}
    (htake : s.bufferToWrite.take 2 = [some j, some i]) :
    Roles { s with
      heap := (s.heap.set i .empty).set j .empty
      newBuffer1 := some i
      newBuffer2 := some j
      bufferToWrite := []
      writer := .testing } where
  refers := ((hr.refers.mono fun k => by
    have hle := (List.take_sublist 2 s.bufferToWrite).count_le (some k)
    rw [htake] at hle
    simp only [pointers, List.count_cons, List.count_append, List.count_nil] at hle ⊢
    omega).set i .empty).set j .empty
  current := hr.current
  notNull := hr.notNull
  next := hr.next
  nextEmpty := read_reset (read_reset hr.nextEmpty)
  spare _ := ⟨Option.some_ne_none i, Option.some_ne_none j⟩
  spareEmpty := ⟨read_reset content_set_self, congrArg FixedBuffer.data (Store.get_set_self ..)⟩
  taken h := by cases h
  free _ := rfl

/-- **Every step keeps the roles.** -/
theorem step (hr : s.Roles) (h : Stepped s op es s') : s'.Roles := by
  cases h with
  | appendHere hcur _ hb => exact hr.appendHere hcur _
  | appendNext hcur hnext hb => exact hr.appendNext hcur hnext _
  | appendNew hcur hnext hb => exact hr.appendNew hcur hnext _
  | start h => exact hr.goto true s.stopper s.index (fun hw => by cases hw) (h ▸ rfl)
  | stop h => exact hr.goto false .joining s.index id rfl
  | join h => exact hr.goto s.running .returned s.index id rfl
  | countDown h => exact hr.goto s.running s.stopper s.index (fun hw => by cases hw) (h ▸ rfl)
  | setUp h => exact hr.setUp
  | go h => exact hr.goto s.running s.stopper s.index (fun _ => h ▸ rfl) (h ▸ rfl)
  | leave h => exact hr.goto s.running s.stopper s.index (fun hw => by cases hw) (h ▸ rfl)
  | wait h => exact hr.goto s.running s.stopper s.index (fun _ => h ▸ rfl) (h ▸ rfl)
  | swap h =>
    rcases h with ⟨-, h⟩ | ⟨-, h⟩
    · exact hr.swapped (h ▸ rfl) (hr.free (h ▸ rfl))
    · exact hr.swapped (h ▸ rfl) (hr.free (h ▸ rfl))
  | erase h => exact hr.erase (h ▸ rfl)
  | write h => exact hr.goto s.running s.stopper (s.index + 1) id rfl
  | recycleOne _ _ htake h₂ => exact hr.recycleOne htake h₂
  | recycleTwo _ _ htake => exact hr.recycleTwo htake

end Roles

end AsyncLogger

end Cannet.Base
