import Cannet.Net.Buffer.Queue
import Cannet.Net.Connection.Delivery
import Mathlib.Data.List.TakeWhile

/-!
# Sending what is in a buffer

`send(Buffer *)` of `net/TcpConnection.cpp`, a call on the connection and the user's buffer.

On the loop's thread the bytes reach `sendInLoop` as a `std::string` made of the pointer
`buf->peek()`: they end at the first zero byte, wherever it is, and their number is computed from
the buffer. On another thread the bytes are taken out of the buffer by the functor, in the same
argument list that asks for their number, and C++ leaves the order of the two open.
-/

namespace Cannet.Net

open Foundations TcpConnection

variable {β : Type}

/-- The order in which the arguments of `sendInLoop` are evaluated in the functor. -/
inductive ArgOrder
  | dataFirst
  | lenFirst
  deriving DecidableEq, Repr

namespace Buffer

/-- The zero byte, which is also what a vector fills new room with. -/
def nul [Inhabited β] : β := default

/-- `std::string(peek())`: the bytes up to the first zero byte, if the vector has one there. -/
def cString [Inhabited β] [DecidableEq β] (b : Buffer β) : Option (List β) :=
  if nul ∈ b.buffer.drop b.readerIndex then
    some ((b.buffer.drop b.readerIndex).takeWhile (· ≠ nul))
  else none

def retrieveAsString (len : ℕ) (b : Buffer β) : Option (List β × Buffer β) :=
  if len ≤ b.readableBytes then
    (b.retrieve len).map fun b' => ((b.buffer.drop b.readerIndex).take len, b')
  else none

def retrieveAllAsString (b : Buffer β) : Option (List β × Buffer β) :=
  b.retrieveAsString b.readableBytes

theorem retrieveAllAsString_eq (b : Buffer β) :
    b.retrieveAllAsString = some (b.readable, b.retrieveAll) := by
  rw [retrieveAllAsString, retrieveAsString, if_pos (Nat.le_refl _), retrieve,
    if_pos (Nat.le_refl _), if_neg (Nat.lt_irrefl _)]
  rfl

/-- The vector from the reader on: what is readable, and what is behind it. -/
theorem drop_readerIndex {b : Buffer β} (h : b.Wf) :
    b.buffer.drop b.readerIndex = b.readable ++ b.spare := by
  have hskip : b.readerIndex + b.readableBytes = b.writerIndex :=
    Nat.add_sub_cancel' h.reader_le
  rw [readable, spare, ← hskip, ← List.drop_drop, List.take_append_drop]

/-- **The string made of `peek()` is the readable bytes** when they hold no zero byte and one is
right behind them. -/
theorem cString_eq_readable_iff [Inhabited β] [DecidableEq β] {b : Buffer β} (h : b.Wf) :
    b.cString = some b.readable ↔ nul ∉ b.readable ∧ b.spare.head? = some nul := by
  rw [cString, drop_readerIndex h]
  constructor
  · intro hstr
    split at hstr
    · rename_i hmem
      have heq := Option.some.inj hstr
      have hnot : nul ∉ b.readable := by
        intro hin
        rw [← heq] at hin
        simpa using List.mem_takeWhile_imp hin
      refine ⟨hnot, ?_⟩
      have hall : ∀ a ∈ b.readable, decide (a ≠ nul) = true := by
        intro a ha
        exact decide_eq_true fun hnul => hnot (hnul ▸ ha)
      rw [List.takeWhile_append_of_pos hall, List.append_right_eq_self] at heq
      cases hspare : b.spare with
      | nil => simp [hspare, hnot] at hmem
      | cons a l =>
        rw [hspare] at heq
        by_contra hne
        have ha : a ≠ nul := fun hnul => hne (by rw [hnul]; rfl)
        simp [ha] at heq
    · cases hstr
  · rintro ⟨hnot, hhead⟩
    have hall : ∀ a ∈ b.readable, decide (a ≠ nul) = true := by
      intro a ha
      exact decide_eq_true fun hnul => hnot (hnul ▸ ha)
    obtain ⟨l, hspare⟩ := List.head?_eq_some_iff.1 hhead
    rw [hspare, if_pos (by simp), List.takeWhile_append_of_pos hall]
    simp

end Buffer

/-! ## The call and its functor -/

/-- A call on a connection and a buffer of the user's. -/
abbrev BufferConn (β α : Type) := Act Abort (Effect β) (TcpConnection β × Buffer β) α

namespace TcpConnection

/-- A call on the connection. -/
def onConn {α : Type} (x : Conn β α) : BufferConn β α :=
  Act.zoom Prod.fst (fun c s => (c, s.2)) x

/-- `buf->retrieveAllAsString()`. -/
def takeAll : BufferConn β (List β) := do
  let s ← Act.get
  let (data, b) ← Act.need .assertion s.2.retrieveAllAsString
  Act.modify fun s => (s.1, b)
  pure data

theorem takeAll_apply (c : TcpConnection β) (b : Buffer β) :
    takeAll (c, b) = ⟨.ok b.readable, (c, b.retrieveAll), []⟩ := by
  rw [takeAll, Act.get_bind, Buffer.retrieveAllAsString_eq]
  rfl

variable [Inhabited β]

/-- `send(Buffer *)`: whether its functor has gone to the loop's queue. -/
def sendBuffer [DecidableEq β] (onLoop : Bool) (w f : SysRet) : BufferConn β Bool := do
  let s ← Act.get
  if s.1.state = .kConnected then
    if onLoop then
      let data ← Act.need .outOfBounds s.2.cString
      onConn (sendInLoop w f data s.2.readableBytes)
      Act.modify fun s => (s.1, s.2.retrieveAll)
      pure false
    else
      pure true
  else
    pure false

/-- The functor of `send(Buffer *)`, which the loop runs later. -/
def sendBufferFunctor (order : ArgOrder) (w f : SysRet) : BufferConn β Unit :=
  match order with
  | .dataFirst => do
    let data ← takeAll
    let s ← Act.get
    onConn (sendInLoop w f data s.2.readableBytes)
  | .lenFirst => do
    let s ← Act.get
    let len := s.2.readableBytes
    let data ← takeAll
    onConn (sendInLoop w f data len)

theorem onConn_sendInLoop (w f : SysRet) (data : List β) (len : ℕ) (c : TcpConnection β)
    (b : Buffer β) :
    onConn (sendInLoop w f data len) (c, b) = ⟨(sendInLoop w f data len c).val,
      ((sendInLoop w f data len c).state, b), (sendInLoop w f data len c).trace⟩ := rfl

end TcpConnection

/-! ## Agreement with the contents -/

variable [Inhabited β]

/-- What a call that sends the buffer `b` should leave: `sendInLoop` was given the readable bytes
and their number, once, and if it returns, so does the call and the buffer is empty. -/
structure Agrees {α : Type} (w f : SysRet) (c : TcpConnection β) (b : Buffer β)
    (o : Outcome Abort (Effect β) (TcpConnection β × Buffer β) α) : Prop where
  handed : passed o.trace = [some (b.readable, b.readable.length)]
  emptied : (sendInLoop w f b.readable b.readable.length c).val = .ok () →
    o.returned = true ∧ o.state.2.readableBytes = 0

/-- **`send(Buffer *)` agrees with the buffer's contents**: at once on the loop's thread; from
another thread its functor does, on the connection as the loop finds it. -/
def SendAgrees [DecidableEq β] (onLoop : Bool) (order : ArgOrder) (w f : SysRet)
    (c : TcpConnection β) (b : Buffer β) : Prop :=
  if onLoop then Agrees w f c b (sendBuffer true w f (c, b))
  else sendBuffer false w f (c, b) = ⟨.ok true, (c, b), []⟩ ∧
    ∀ c', Agrees w f c' b (sendBufferFunctor order w f (c', b))

/-- A call that hands `data` over with the length `len` and then leaves the buffer empty. -/
theorem agrees_iff {α : Type} {w f : SysRet} {c : TcpConnection β} {b : Buffer β}
    {o : Outcome Abort (Effect β) (TcpConnection β × Buffer β) α} {data : List β} {len : ℕ}
    (htrace : passed o.trace = [some (data, len)])
    (hempty : (sendInLoop w f data len c).val = .ok () →
      o.returned = true ∧ o.state.2.readableBytes = 0) :
    Agrees w f c b o ↔ data = b.readable ∧ len = b.readable.length := by
  constructor
  · rintro ⟨hhanded, -⟩
    simpa using htrace.symm.trans hhanded
  · rintro ⟨rfl, rfl⟩
    exact ⟨htrace, hempty⟩

omit [Inhabited β] in
theorem readableBytes_retrieveAll (b : Buffer β) : b.retrieveAll.readableBytes = 0 :=
  Nat.sub_self _

/-- On the loop's thread everything hangs on the string. -/
theorem sendBuffer_agrees_iff [DecidableEq β] (w f : SysRet) {c : TcpConnection β} {b : Buffer β}
    (hwf : b.Wf) (hconn : c.state = .kConnected) :
    Agrees w f c b (sendBuffer true w f (c, b)) ↔ b.cString = some b.readable := by
  have hlen := hwf.length_readable
  rw [sendBuffer, Act.get_bind, Act.ite_apply, if_pos hconn, Act.ite_apply, if_pos rfl]
  cases hstr : b.cString with
  | none =>
    refine iff_of_false (fun h => ?_) nofun
    simpa [Act.bind_apply] using h.handed
  | some data =>
    rw [Act.need_some, Act.pure_bind, Option.some_inj]
    have hsend := onConn_sendInLoop w f data b.readableBytes c b
    have hpassed := passed_sendInLoop w f data b.readableBytes c
    rcases hval : (sendInLoop w f data b.readableBytes c).val with e | u
    · rw [hval] at hsend
      rw [Act.bind_error hsend]
      refine (agrees_iff hpassed fun h => ?_).trans (and_iff_left hlen.symm)
      cases hval.symm.trans h
    · rw [hval] at hsend
      rw [Act.bind_ok hsend]
      have hrest : passed ((sendInLoop w f data b.readableBytes c).trace ++ []) =
          [some (data, b.readableBytes)] := by
        rw [List.append_nil, hpassed]
      exact (agrees_iff hrest fun _ => ⟨rfl, readableBytes_retrieveAll b⟩).trans
        (and_iff_left hlen.symm)

/-- In the functor everything hangs on the order. -/
theorem sendBufferFunctor_agrees_iff (order : ArgOrder) (w f : SysRet) (c : TcpConnection β)
    {b : Buffer β} (hwf : b.Wf) :
    Agrees w f c b (sendBufferFunctor order w f (c, b)) ↔
      order = .lenFirst ∨ b.readable = [] := by
  have hlen := hwf.length_readable
  cases order with
  | dataFirst =>
    have hrun : sendBufferFunctor .dataFirst w f (c, b) =
        onConn (sendInLoop w f b.readable 0) (c, b.retrieveAll) := by
      rw [sendBufferFunctor, Act.bind_ok (takeAll_apply c b), Act.get_bind,
        readableBytes_retrieveAll]
      rfl
    have hnil : 0 = b.readable.length ↔ b.readable = [] := by
      rw [eq_comm, List.length_eq_zero_iff]
    rw [hrun, onConn_sendInLoop]
    refine (agrees_iff (passed_sendInLoop w f b.readable 0 c) fun h =>
      ⟨Outcome.returned_iff.2 h, readableBytes_retrieveAll b⟩).trans ?_
    rw [and_iff_right rfl, hnil, or_iff_right (by decide)]
  | lenFirst =>
    have hrun : sendBufferFunctor .lenFirst w f (c, b) =
        onConn (sendInLoop w f b.readable b.readableBytes) (c, b.retrieveAll) := by
      rw [sendBufferFunctor, Act.get_bind, Act.bind_ok (takeAll_apply c b)]
      rfl
    rw [hrun, onConn_sendInLoop]
    refine (agrees_iff (passed_sendInLoop w f b.readable b.readableBytes c) fun h =>
      ⟨Outcome.returned_iff.2 h, readableBytes_retrieveAll b⟩).trans ?_
    exact iff_of_true ⟨rfl, hlen.symm⟩ (.inl rfl)

/-- **When `send(Buffer *)` agrees with the buffer's contents**, in a connected state: on the
loop's thread if they hold no zero byte and one is right behind them, from another thread if the
length is computed before the bytes are taken or there are none. -/
theorem send_buffer_agrees_iff [DecidableEq β] (onLoop : Bool) (order : ArgOrder) (w f : SysRet)
    {c : TcpConnection β} {b : Buffer β} (hwf : b.Wf) (hconn : c.state = .kConnected) :
    SendAgrees onLoop order w f c b ↔
      if onLoop then Buffer.nul ∉ b.readable ∧ b.spare.head? = some Buffer.nul
      else order = .lenFirst ∨ b.readable = [] := by
  cases onLoop with
  | true =>
    rw [SendAgrees, if_pos rfl, if_pos rfl, sendBuffer_agrees_iff w f hwf hconn,
      Buffer.cString_eq_readable_iff hwf]
  | false =>
    have hqueued : sendBuffer false w f (c, b) = ⟨.ok true, (c, b), []⟩ := by
      rw [sendBuffer, Act.get_bind, Act.ite_apply, if_pos hconn]
      rfl
    rw [SendAgrees, if_neg Bool.false_ne_true, if_neg Bool.false_ne_true, and_iff_right hqueued]
    refine ⟨fun h => (sendBufferFunctor_agrees_iff order w f c hwf).1 (h c), fun h c' => ?_⟩
    exact (sendBufferFunctor_agrees_iff order w f c' hwf).2 h

omit [Inhabited β] in
/-- Two bytes of text in a fresh buffer, on the loop's thread. -/
theorem send_buffer_agrees_on_text :
    ∃ (c : TcpConnection ℕ) (b : Buffer ℕ), b.readable = [7, 8] ∧
      (SendAgrees true .dataFirst (.ok 2) (.ok 0) c b ↔
        if true then Buffer.nul ∉ b.readable ∧ b.spare.head? = some Buffer.nul
        else ArgOrder.dataFirst = .lenFirst ∨ b.readable = []) ∧
      SendAgrees true .dataFirst (.ok 2) (.ok 0) c b := by
  let b : Buffer ℕ := ⟨[0, 0, 0, 0, 0, 0, 0, 0, 7, 8, 0, 0], 8, 10⟩
  have hwf : b.Wf := ⟨by decide, by decide, by decide⟩
  have hiff := send_buffer_agrees_iff (c := opened 5) true .dataFirst (.ok 2) (.ok 0) hwf rfl
  exact ⟨opened 5, b, rfl, hiff, hiff.2 (by decide)⟩

omit [Inhabited β] in
/-- Three bytes with a zero byte among them: on the loop's thread `sendInLoop` is given one byte and
the length three, and reads past its string. From another thread, with the bytes taken out before
they are counted, it is given the bytes and the length zero. -/
theorem send_buffer_disagrees :
    ∃ b : Buffer ℕ, b.readable = [7, 0, 8] ∧
      passed (sendBuffer true (.ok 3) (.ok 0) (opened 5, b)).trace = [some ([7], 3)] ∧
      (sendBuffer true (.ok 3) (.ok 0) (opened 5, b)).returned = false ∧
      ¬SendAgrees true .lenFirst (.ok 3) (.ok 0) (opened 5) b ∧
      passed (sendBufferFunctor .dataFirst (.ok 3) (.ok 0) (opened 5, b)).trace =
        [some ([7, 0, 8], 0)] ∧
      ¬SendAgrees false .dataFirst (.ok 3) (.ok 0) (opened 5) b := by
  refine ⟨⟨[0, 0, 0, 0, 0, 0, 0, 0, 7, 0, 8, 0], 8, 11⟩, rfl, by decide, by decide, ?_, by decide,
    ?_⟩
  · intro h
    exact absurd ((if_pos rfl).mp h : Agrees _ _ _ _ _).handed (by decide)
  · intro h
    exact absurd (((if_neg Bool.false_ne_true).mp h).2 (opened 5)).handed (by decide)

end Cannet.Net
