import Cannet.Base.AsyncLogger.Roles

/-!
# The order of the records

The records appended are, in order, those of the batches that the writer has dealt with
(`earlier`), of the batch at hand (`batch`), of the full buffers (`full`) and of the current one
(`cur`); the four are lists of buffers, and a buffer is a list of whole records. `Ordered` ties
them to the bytes of the buffers and of the file. The writer leaves out the buffers from the third
on of a batch of more than 25, and nothing else (`cut`).
-/

namespace Cannet.Base

open Foundations AsyncLogger

variable {β : Type}

/-! ## What the threads have done -/

/-- The records, in the order of their critical sections. -/
def recordsOf (es : List (LogEvent β)) : List (List β) :=
  es.filterMap fun
    | .appended logline => some logline
    | _ => none

/-- The batches that the writer has taken, each a list of buffers. -/
def batchesOf (es : List (LogEvent β)) : List (List (List β)) :=
  es.filterMap fun
    | .swapped batch => some batch
    | _ => none

/-- The bytes in the file. -/
def writtenOf (es : List (LogEvent β)) : List β :=
  es.flatMap fun
    | .written data => data
    | _ => []

@[simp] theorem recordsOf_append (es es' : List (LogEvent β)) :
    recordsOf (es ++ es') = recordsOf es ++ recordsOf es' := List.filterMap_append

@[simp] theorem batchesOf_append (es es' : List (LogEvent β)) :
    batchesOf (es ++ es') = batchesOf es ++ batchesOf es' := List.filterMap_append

@[simp] theorem writtenOf_append (es es' : List (LogEvent β)) :
    writtenOf (es ++ es') = writtenOf es ++ writtenOf es' := List.flatMap_append

/-! ## Where the records are -/

/-- What the writer leaves of a batch. -/
def cut {α : Type} (batch : List α) : List α := if batch.length > 25 then batch.take 2 else batch

theorem map_cut {α α' : Type} (f : α → α') (batch : List α) :
    (cut batch).map f = cut (batch.map f) := by
  rw [cut, cut, List.length_map]
  split
  · exact List.map_take
  · rfl

/-- What is left of the batch at hand. -/
def Writer.kept {α : Type} (batch : List α) : Writer → List α
  | writing => cut batch
  | _ => batch

namespace AsyncLogger

/-- The number of buffers of the batch that are in the file. -/
def done (s : AsyncLogger β) : ℕ := if s.writer = .writing then s.index else 0

/-- The bytes of the batch that are not in the file yet. -/
def unwritten (s : AsyncLogger β) : List β := ((s.bufferToWrite.drop s.done).map s.content).flatten

/-- The bytes of the full buffers and of the current one. -/
def pending (s : AsyncLogger β) : List β :=
  ((s.buffers ++ [s.currentBuffer]).map s.content).flatten

end AsyncLogger

/-- The records of each buffer, and the bytes they make up. -/
structure Ordered (es : List (LogEvent β)) (s : AsyncLogger β)
    (earlier : List (List (List (List β)))) (batch full : List (List (List β)))
    (cur : List (List β)) : Prop where
  records : recordsOf es = (earlier.flatten ++ batch ++ full ++ [cur]).flatten
  batches : batchesOf es =
    (earlier ++ if s.writer.hasBatch then [batch] else []).map (List.map List.flatten)
  noBatch : s.writer.hasBatch = false → batch = []
  full : s.buffers.map s.content = full.map List.flatten
  current : s.content s.currentBuffer = cur.flatten
  taken : s.bufferToWrite.map s.content = (s.writer.kept batch).map List.flatten
  written : writtenOf es =
    (earlier.flatMap cut).flatten.flatten ++ ((s.bufferToWrite.take s.done).map s.content).flatten

/-- A record is shorter than a buffer. -/
def Fits (call : LogCall β) : Prop :=
  match call.input with
  | .append logline => logline.length < kLargeBuffer
  | _ => True

instance : DecidablePred (Fits (β := β))
  | ⟨.append _, _, _⟩ => inferInstanceAs (Decidable (_ < _))
  | ⟨.start, _, _⟩ | ⟨.stop, _, _⟩ | ⟨.join, _, _⟩ | ⟨.countDown, _, _⟩ | ⟨.setUp, _, _⟩
  | ⟨.test, _, _⟩ | ⟨.lock, _, _⟩ | ⟨.wake, _, _⟩ | ⟨.erase, _, _⟩ | ⟨.write, _, _⟩
  | ⟨.recycle, _, _⟩ => isTrue trivial

section Steps

variable {s s' : AsyncLogger β} {op : LogOp β} {before es : List (LogEvent β)}
  {earlier : List (List (List (List β)))} {batch full : List (List (List β))}
  {cur : List (List β)}

/-- A record that fits is appended whole. -/
theorem data_append {b b' : LargeBuffer β} {logline : List β} (h : b.append logline = some b')
    (hfits : logline.length < kLargeBuffer) (havail : b.avail > logline.length) :
    b'.data = b.data ++ logline := by
  have hint : logline.length < 2 ^ 31 := Nat.lt_trans hfits (by decide)
  obtain ⟨b₁, hb₁, hdata⟩ := FixedBuffer.append_of_lt hint havail
  obtain rfl := Option.some.inj (h.symm.trans hb₁)
  exact hdata

theorem avail_of_empty {b : LargeBuffer β} (h : b.data = []) : b.avail = kLargeBuffer := by
  rw [FixedBuffer.avail, FixedBuffer.length, h]
  rfl

/-- A record that fits is all that is in a buffer that was empty. -/
theorem data_append_empty {b b' : LargeBuffer β} {logline : List β} (hempty : b.data = [])
    (h : b.append logline = some b') (hfits : logline.length < kLargeBuffer) :
    b'.data = logline := by
  have havail : b.avail > logline.length := by
    rw [avail_of_empty hempty]
    exact Int.ofNat_lt.2 hfits
  rw [data_append h hfits havail, hempty, List.nil_append]

/-- A record is put into the current buffer. -/
theorem Ordered.appendHere (ho : Ordered before s earlier batch full cur) (hr : s.Roles)
    {logline : List β} {i : ℕ} {b : LargeBuffer β} (hcur : s.currentBuffer = some i)
    (hdata : b.data = (s.heap.get i).data ++ logline) :
    Ordered (before ++ [.appended logline]) { s with heap := s.heap.set i b } earlier batch full
      (cur ++ [logline]) := by
  have hi := hr.current_notMem hcur
  simp only [List.mem_cons, List.mem_append, not_or] at hi
  obtain ⟨-, -, -, hfull, hbatch⟩ := hi
  have hall : s.bufferToWrite.map ((s.heap.set i b).read [] FixedBuffer.data) =
      s.bufferToWrite.map s.content := Store.map_read_set hbatch
  have hdone : (s.bufferToWrite.take s.done).map ((s.heap.set i b).read [] FixedBuffer.data) =
      (s.bufferToWrite.take s.done).map s.content :=
    Store.map_read_set fun hmem => hbatch (List.mem_of_mem_take hmem)
  have hold : cur.flatten = (s.heap.get i).data := by
    rw [← ho.current, hcur]
    rfl
  exact
  { records := by
      rw [recordsOf_append, ho.records]
      simp [recordsOf]
    batches := by simpa [batchesOf] using ho.batches
    noBatch := ho.noBatch
    full := (Store.map_read_set hfull).trans ho.full
    current := by
      rw [List.flatten_append, List.flatten_singleton, hold, ← hdata, ← content_set_self, ← hcur]
      rfl
    taken := hall.trans ho.taken
    written := by
      rw [writtenOf_append, ho.written, ← hdone]
      simp [writtenOf]
      rfl }

/-- The full buffer is put away, and the record goes into another one. -/
theorem Ordered.appendAway (ho : Ordered before s earlier batch full cur) {logline : List β}
    {i j : ℕ} {m : Store (LargeBuffer β)} {nextBuffer : Option ℕ} (hcur : s.currentBuffer = some i)
    (hsame : ∀ p ∈ some i :: (s.buffers ++ s.bufferToWrite),
      m.read [] FixedBuffer.data p = s.content p)
    (hdata : (m.get j).data = logline) :
    Ordered (before ++ [.appended logline])
      { s with
        heap := m
        buffers := s.buffers ++ [some i]
        currentBuffer := some j
        nextBuffer := nextBuffer } earlier batch (full ++ [cur]) [logline] where
  records := by
    rw [recordsOf_append, ho.records]
    simp [recordsOf]
  batches := by simpa [batchesOf] using ho.batches
  noBatch := ho.noBatch
  full := by
    have hfull : s.buffers.map (m.read [] FixedBuffer.data) = s.buffers.map s.content :=
      List.map_congr_left fun p hp => hsame p (by simp [hp])
    have hlast : m.read [] FixedBuffer.data (some i) = cur.flatten := by
      rw [hsame _ (by simp), ← hcur, ho.current]
    show (s.buffers ++ [some i]).map (m.read [] FixedBuffer.data) = _
    rw [List.map_append, List.map_append, hfull, ho.full, List.map_singleton, List.map_singleton,
      hlast]
  current := by
    rw [List.flatten_singleton]
    exact hdata
  taken := by
    have hall : s.bufferToWrite.map (m.read [] FixedBuffer.data) = s.bufferToWrite.map s.content :=
      List.map_congr_left fun p hp => hsame p (by simp [hp])
    exact hall.trans ho.taken
  written := by
    have hdone : (s.bufferToWrite.take s.done).map (m.read [] FixedBuffer.data) =
        (s.bufferToWrite.take s.done).map s.content :=
      List.map_congr_left fun p hp => hsame p (by simp [List.mem_of_mem_take hp])
    rw [writtenOf_append, ho.written, ← hdone]
    simp [writtenOf]
    rfl

/-- The record goes into the spare buffer `nextBuffer_`. -/
theorem Ordered.appendNext (ho : Ordered before s earlier batch full cur) (hr : s.Roles)
    {logline : List β} {i j : ℕ} {b : LargeBuffer β} (hcur : s.currentBuffer = some i)
    (hnext : s.nextBuffer = some j) (hb : (s.heap.get j).append logline = some b)
    (hfits : logline.length < kLargeBuffer) :
    Ordered (before ++ [.appended logline])
      { s with
        heap := s.heap.set j b
        buffers := s.buffers ++ [some i]
        currentBuffer := some j
        nextBuffer := none } earlier batch (full ++ [cur]) [logline] := by
  have hj := hr.next_notMem hnext
  have hempty : (s.heap.get j).data = [] := by
    have hnil := hr.nextEmpty
    rwa [hnext] at hnil
  refine ho.appendAway hcur (fun p hp => Store.read_set_of_ne ?_) ?_
  · rintro rfl
    rw [← hcur] at hp
    simp only [List.mem_cons, List.mem_append] at hp hj
    tauto
  · rw [Store.get_set_self]
    exact data_append_empty hempty hb hfits

/-- The record goes into a new buffer. -/
theorem Ordered.appendNew (ho : Ordered before s earlier batch full cur)
    (hmade : ∀ p ∈ s.currentBuffer :: (s.buffers ++ s.bufferToWrite), ∀ k, p = some k →
      k < s.heap.made)
    {logline : List β} {i : ℕ} {b : LargeBuffer β} {nextBuffer : Option ℕ}
    (hcur : s.currentBuffer = some i)
    (hb : (FixedBuffer.empty : LargeBuffer β).append logline = some b)
    (hfits : logline.length < kLargeBuffer) :
    Ordered (before ++ [.appended logline])
      { s with
        heap := (s.heap.alloc FixedBuffer.empty).set s.heap.made b
        buffers := s.buffers ++ [some i]
        currentBuffer := some s.heap.made
        nextBuffer := nextBuffer } earlier batch (full ++ [cur]) [logline] := by
  rw [hcur] at hmade
  refine ho.appendAway hcur (fun p hp => ?_) ?_
  · rw [Store.read_set_of_ne fun hp' => Nat.lt_irrefl _ (hmade p hp _ hp')]
    exact content_alloc (hmade p hp)
  · rw [Store.get_set_self]
    exact data_append_empty rfl hb hfits

theorem Writer.kept_nil {α : Type} (w : Writer) : w.kept ([] : List α) = [] := by
  cases w <;> rfl

/-- Between two batches the writer has nothing to write. -/
theorem Ordered.bufferToWrite_nil (ho : Ordered before s earlier batch full cur)
    (h : s.writer.hasBatch = false) : s.bufferToWrite = [] := by
  have htaken := ho.taken
  rw [ho.noBatch h, Writer.kept_nil] at htaken
  exact List.map_eq_nil_iff.1 htaken

/-- The threads go on between two batches, and nothing is appended, taken or written. -/
theorem Ordered.idle (ho : Ordered before s earlier batch full cur)
    (hbatch : s.writer.hasBatch = false) (hbatch' : s'.writer.hasBatch = false)
    (hwrite : s'.bufferToWrite = []) (hbuffers : s'.buffers = s.buffers)
    (hcurrent : s'.currentBuffer = s.currentBuffer)
    (hsame : ∀ p ∈ s.currentBuffer :: s.buffers, s'.content p = s.content p) :
    Ordered (before ++ []) s' earlier batch full cur := by
  have hnil : batch = [] := ho.noBatch hbatch
  have hold := ho.bufferToWrite_nil hbatch
  rw [List.append_nil]
  refine ⟨ho.records, ?_, fun _ => hnil, ?_, ?_, ?_, ?_⟩
  · rw [ho.batches, hbatch, hbatch']
  · rw [hbuffers, ← ho.full]
    exact List.map_congr_left fun p hp => hsame p (List.mem_cons_of_mem _ hp)
  · rw [hcurrent, hsame _ List.mem_cons_self, ho.current]
  · rw [hwrite, hnil, Writer.kept_nil]
    rfl
  · rw [ho.written, hold, hwrite, List.take_nil, List.take_nil, List.map_nil, List.map_nil]

/-- The writer takes the full buffers and the current one. -/
theorem Ordered.swap (ho : Ordered before s earlier batch full cur) (hr : s.Roles)
    (hbatch : s.writer.hasBatch = false) :
    Ordered (before ++ [.swapped (s.swapped.bufferToWrite.map s.content)]) s.swapped earlier
      (full ++ [cur]) [] [] := by
  have hnil : batch = [] := ho.noBatch hbatch
  have hold := ho.bufferToWrite_nil hbatch
  have hall :
      (s.buffers ++ [s.currentBuffer]).map s.content = (full ++ [cur]).map List.flatten := by
    rw [List.map_append, List.map_append, ho.full, List.map_singleton, List.map_singleton,
      ho.current]
  refine ⟨?_, ?_, fun h => (by cases h), ?_, hr.spareEmpty.1, hall, ?_⟩
  · rw [recordsOf_append, ho.records, hnil]
    simp [recordsOf]
  · rw [batchesOf_append, ho.batches, hbatch]
    simp only [AsyncLogger.swapped, hall]
    simp [batchesOf, Writer.hasBatch]
  · show s.bufferToWrite.map s.content = _
    rw [hold]
    rfl
  · rw [writtenOf_append, ho.written, hold]
    simp [writtenOf, AsyncLogger.done, AsyncLogger.swapped]

/-- A batch that is too long is cut. -/
theorem Ordered.erase (ho : Ordered before s earlier batch full cur) (h : s.writer = .swapped) :
    Ordered (before ++ [])
      { s with
        bufferToWrite :=
          if s.bufferToWrite.length > 25 then s.bufferToWrite.take 2 else s.bufferToWrite
        index := 0
        writer := .writing } earlier batch full cur := by
  have htaken : s.bufferToWrite.map s.content = batch.map List.flatten := by
    rw [ho.taken, h]
    rfl
  have hdone : s.done = 0 := by
    rw [AsyncLogger.done, h]
    rfl
  rw [List.append_nil]
  refine ⟨ho.records, ?_, fun hw => (by cases hw), ho.full, ho.current, ?_, ?_⟩
  · rw [ho.batches, h]
    rfl
  · show (cut s.bufferToWrite).map s.content = (cut batch).map List.flatten
    rw [map_cut, map_cut, htaken]
  · rw [ho.written, hdone]
    rfl

/-- A buffer is written to the file. -/
theorem Ordered.write (ho : Ordered before s earlier batch full cur) {i : ℕ}
    (h : s.writer = .writing) (hi : s.bufferToWrite[s.index]? = some (some i)) :
    Ordered (before ++ [.written (s.heap.get i).data]) { s with index := s.index + 1 } earlier
      batch full cur := by
  have hdone : s.done = s.index := if_pos h
  have hnext : (AsyncLogger.done { s with index := s.index + 1 }) = s.index + 1 := if_pos h
  have hdata : s.content (some i) = (s.heap.get i).data := rfl
  refine ⟨?_, ?_, ho.noBatch, ho.full, ho.current, ho.taken, ?_⟩
  · rw [recordsOf_append, ho.records]
    simp [recordsOf]
  · rw [batchesOf_append, ho.batches]
    simp [batchesOf]
  · rw [writtenOf_append, ho.written, hdone, hnext, List.take_add_one, hi, List.map_append,
      List.flatten_append, ← List.append_assoc, ← hdata]
    simp only [writtenOf, List.flatMap_singleton, Option.toList_some, List.map_singleton,
      List.flatten_singleton]
    rfl

/-- The writer has dealt with the batch. -/
theorem Ordered.recycle (ho : Ordered before s earlier batch full cur) {m : Store (LargeBuffer β)}
    {newBuffer1 newBuffer2 : Option ℕ} (h : s.writer = .writing)
    (hindex : s.bufferToWrite.length ≤ s.index)
    (hsame : ∀ p ∈ s.currentBuffer :: s.buffers, m.read [] FixedBuffer.data p = s.content p) :
    Ordered (before ++ [])
      { s with
        heap := m
        newBuffer1 := newBuffer1
        newBuffer2 := newBuffer2
        bufferToWrite := []
        writer := .testing } (earlier ++ [batch]) [] full cur := by
  have hdone : s.done = s.index := if_pos h
  have htaken : s.bufferToWrite.map s.content = (cut batch).map List.flatten := by
    rw [ho.taken, h]
    rfl
  rw [List.append_nil]
  refine ⟨?_, ?_, fun _ => rfl, ?_, ?_, rfl, ?_⟩
  · rw [ho.records]
    simp
  · rw [ho.batches, h]
    simp [Writer.hasBatch]
  · rw [← ho.full]
    exact List.map_congr_left fun p hp => hsame p (List.mem_cons_of_mem _ hp)
  · rw [← ho.current]
    exact hsame _ List.mem_cons_self
  · rw [ho.written, hdone, List.take_of_length_le hindex, htaken]
    simp [List.flatten_flatten]

/-- **A step keeps the records in order.** -/
theorem Ordered.step (ho : Ordered before s earlier batch full cur) (hr : s.Roles)
    (h : Stepped s op es s')
    (hfits : ∀ logline, op = .append logline → logline.length < kLargeBuffer) :
    ∃ earlier batch full cur, Ordered (before ++ es) s' earlier batch full cur := by
  have hmade : ∀ p ∈ s.currentBuffer :: (s.buffers ++ s.bufferToWrite), ∀ k, p = some k →
      k < s.heap.made := by
    rintro _ hp k rfl
    refine hr.refers.made k ?_
    simp only [AsyncLogger.pointers, List.mem_cons, List.mem_append] at hp ⊢
    tauto
  cases h with
  | @appendHere logline i b hcur havail hb =>
    exact ⟨_, _, _, _, ho.appendHere hr hcur (data_append hb (hfits _ rfl) havail)⟩
  | @appendNext logline i j b hcur hnext hb =>
    exact ⟨_, _, _, _, ho.appendNext hr hcur hnext hb (hfits _ rfl)⟩
  | @appendNew logline i b hcur hnext hb =>
    exact ⟨_, _, _, _, ho.appendNew hmade hcur hb (hfits _ rfl)⟩
  | start h => exact ⟨_, _, _, _, ho.idle (h ▸ rfl) rfl (hr.free (h ▸ rfl)) rfl rfl fun _ _ => rfl⟩
  | stop h | join h =>
    rw [List.append_nil]
    exact ⟨_, _, _, _, ho.records, ho.batches, ho.noBatch, ho.full, ho.current, ho.taken,
      ho.written⟩
  | countDown h | go h | leave h | wait h =>
    exact ⟨_, _, _, _, ho.idle (h ▸ rfl) rfl (hr.free (h ▸ rfl)) rfl rfl fun _ _ => rfl⟩
  | setUp h =>
    refine ⟨_, _, _, _, ho.idle (h ▸ rfl) rfl rfl rfl rfl fun p hp => ?_⟩
    have hp' : ∀ k, p = some k → k < s.heap.made := by
      refine hmade p ?_
      simp only [List.mem_cons, List.mem_append] at hp ⊢
      tauto
    exact (Store.read_alloc fun k hk => Nat.lt_succ_of_lt (hp' k hk)).trans (content_alloc hp')
  | swap h =>
    rcases h with ⟨-, h⟩ | ⟨-, h⟩
    · exact ⟨_, _, _, _, ho.swap hr (h ▸ rfl)⟩
    · exact ⟨_, _, _, _, ho.swap hr (h ▸ rfl)⟩
  | erase h => exact ⟨_, _, _, _, ho.erase h⟩
  | write h hi => exact ⟨_, _, _, _, ho.write h hi⟩
  | @recycleOne l i h hindex htake h₂ =>
    have hi : some i ∈ s.bufferToWrite := List.mem_of_mem_take (i := 2) (by simp [htake])
    refine ⟨_, _, _, _, ho.recycle h hindex fun p hp => content_set ?_⟩
    rintro rfl
    exact hr.batch_notMem hi hp
  | @recycleTwo i j h hindex htake h₂ =>
    have hi : some i ∈ s.bufferToWrite := List.mem_of_mem_take (i := 2) (by simp [htake])
    have hj : some j ∈ s.bufferToWrite := List.mem_of_mem_take (i := 2) (by simp [htake])
    refine ⟨_, _, _, _, ho.recycle h hindex fun p hp => ?_⟩
    have hpi : p ≠ some i := by
      rintro rfl
      exact hr.batch_notMem hi hp
    have hpj : p ≠ some j := by
      rintro rfl
      exact hr.batch_notMem hj hp
    rw [Store.read_set_of_ne hpj]
    exact content_set hpi

/-! ## The bytes -/

theorem Ordered.waiting (ho : Ordered es s earlier batch full cur) :
    (s.buffers ++ [s.currentBuffer]).map s.content = (full ++ [cur]).map List.flatten := by
  rw [List.map_append, List.map_append, ho.full, List.map_singleton, List.map_singleton,
    ho.current]

/-- The bytes of the front end's buffers. -/
theorem Ordered.pending (ho : Ordered es s earlier batch full cur) :
    s.pending = (full ++ [cur]).flatten.flatten := by
  rw [AsyncLogger.pending, ho.waiting, List.flatten_flatten]

/-- The bytes in the file and those on their way to it. -/
theorem Ordered.file (ho : Ordered es s earlier batch full cur) :
    writtenOf es ++ s.unwritten = (earlier.flatMap cut ++ s.writer.kept batch).flatten.flatten := by
  have hbatch : ((s.bufferToWrite.take s.done).map s.content).flatten ++ s.unwritten =
      (s.writer.kept batch).flatten.flatten := by
    rw [AsyncLogger.unwritten, ← List.flatten_append, ← List.map_append, List.take_append_drop,
      ho.taken, List.flatten_flatten]
  rw [ho.written, List.append_assoc, hbatch, ← List.flatten_append, ← List.flatten_append]

end Steps

/-! ## Any run -/

theorem ordered {calls : List (LogCall β)} {s : AsyncLogger β}
    (h : Run LogOp.exec (fun _ call => Fits call) AsyncLogger.init calls s) :
    s.Roles ∧ ∃ earlier batch full cur, Ordered (traceOf calls) s earlier batch full cur := by
  refine h.invariant (I := fun calls s => s.Roles ∧
    ∃ earlier batch full cur, Ordered (traceOf calls) s earlier batch full cur)
    ⟨.start, [], [], [], [], rfl, rfl, fun _ => rfl, rfl, rfl, rfl, rfl⟩ ?_
  rintro calls s op ⟨hr, earlier, batch, full, cur, ho⟩ hfits hok
  have htaken : s.writer = .writing → s.Taken := fun hw => hr.taken (hw ▸ rfl)
  have hstep := stepped op htaken hok
  rw [traceOf_append, traceOf_singleton]
  refine ⟨hr.step hstep, ho.step hr hstep fun logline hop => ?_⟩
  subst hop
  exact hfits

/-- **The records stay in order.** The records appended are those of the batches that the writer
has taken, one after another, and of the buffers of the front end; the bytes in the file, those of
the batch that are still to be written and those of the front end are the bytes of these records,
without the buffers that are cut. -/
theorem log_in_order {calls : List (LogCall β)} {s : AsyncLogger β}
    (h : Run LogOp.exec (fun _ call => Fits call) AsyncLogger.init calls s) :
    ∃ (earlier : List (List (List (List β)))) (batch waiting : List (List (List β))),
      recordsOf (traceOf calls) = (earlier.flatten ++ batch ++ waiting).flatten ∧
      batchesOf (traceOf calls) =
        (earlier ++ if s.writer.hasBatch then [batch] else []).map (List.map List.flatten) ∧
      (s.buffers ++ [s.currentBuffer]).map s.content = waiting.map List.flatten ∧
      writtenOf (traceOf calls) ++ s.unwritten ++ s.pending =
        (earlier.flatMap cut ++ s.writer.kept batch ++ waiting).flatten.flatten := by
  obtain ⟨-, earlier, batch, full, cur, ho⟩ := ordered h
  refine ⟨earlier, batch, full ++ [cur], ?_, ho.batches, ho.waiting, ?_⟩
  · rw [ho.records, List.append_assoc]
  · rw [ho.file, ho.pending, ← List.flatten_append, ← List.flatten_append]

/-- A record is in the file, one is in the current buffer. -/
theorem log_in_order_of_write :
    ∃ calls s, Run (LogOp.exec (β := ℕ)) (fun _ call => Fits call) AsyncLogger.init calls s ∧
      writtenOf (traceOf calls) = [1, 2] ∧ s.pending = [3] ∧
      ∃ (earlier : List (List (List (List ℕ)))) (batch waiting : List (List (List ℕ))),
        recordsOf (traceOf calls) = (earlier.flatten ++ batch ++ waiting).flatten ∧
        batchesOf (traceOf calls) =
          (earlier ++ if s.writer.hasBatch then [batch] else []).map (List.map List.flatten) ∧
        (s.buffers ++ [s.currentBuffer]).map s.content = waiting.map List.flatten ∧
        writtenOf (traceOf calls) ++ s.unwritten ++ s.pending =
          (earlier.flatMap cut ++ s.writer.kept batch ++ waiting).flatten.flatten := by
  have hrun : Run (LogOp.exec (β := ℕ)) (fun _ call => Fits call) AsyncLogger.init _ _ :=
    run_replay [.append [1, 2], .start, .countDown, .setUp, .test, .lock, .wake, .append [3],
      .erase, .write] (by decide +kernel)
  exact ⟨_, _, hrun, by decide +kernel, by decide +kernel, log_in_order hrun⟩

end Cannet.Base
