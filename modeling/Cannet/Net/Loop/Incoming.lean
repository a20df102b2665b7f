import Cannet.Net.Connection.SendBuffer
import Cannet.Net.Loop.Addressed

/-!
# The incoming streams of a loop

What a connection reads goes to the end of its input buffer, and its user takes bytes from the
front, in the message callback or later. Over the runs of a loop with such users, each life of a
connection has an incoming stream of its own (`incoming_in_order`): what the user took of it is the
beginning of what was read in it, in order, and what the buffer holds is the rest. All of it was
read from one descriptor, and nothing of it is seen in another life of the connection.
-/

namespace Cannet.Net

open Foundations EventLoop TcpConnection

variable {β : Type}

/-- What a callback reads. -/
def ChannelCallback.received : ChannelCallback β → List β
  | readCallback (.ok received) => received
  | _ => []

/-- The user takes bytes from the input buffer. -/
def TcpConnection.takeInput (len : ℕ) : Conn β Unit := do
  let c ← Act.get
  let (_, b) ← Act.need .assertion (c.inputBuffer.retrieveAsString len)
  Act.modify fun c => { c with inputBuffer := b }

/-- A step of the loop, or of a user of one of its connections. -/
inductive InputOp (β : Type)
  | loop (op : LoopOp β)
  | retrieveAsString (conn len : ℕ)

def InputOp.exec [Inhabited β] : InputOp β → LoopAct β Unit
  | loop op => op.exec
  | retrieveAsString conn len => EventLoop.onConnection conn (takeInput len)

abbrev InputCall (β : Type) := Call (InputOp β) Abort (LifeEffect (Effect β)) (EventLoop β)

/-- The user takes no more than there is. -/
def Reading [Inhabited β] (_ : List (InputCall β)) (call : InputCall β) : Prop :=
  match call.input with
  | .loop op => Scheduled [] (Call.make LoopOp.exec op call.before)
  | .retrieveAsString conn len =>
    conn < call.before.made ∧ len ≤ (call.before.conn conn).inputBuffer.readable.length

instance [Inhabited β] : ∀ (calls : List (InputCall β)) (call : InputCall β),
    Decidable (Reading calls call)
  | _, ⟨.loop op, s, _⟩ => inferInstanceAs (Decidable (Scheduled [] (Call.make LoopOp.exec op s)))
  | _, ⟨.retrieveAsString conn len, s, _⟩ => inferInstanceAs (Decidable
      (conn < s.made ∧ len ≤ (s.conn conn).inputBuffer.readable.length))

/-- What a step reads in a life of a connection. -/
def receivedBy (i l : ℕ) (call : InputCall β) : List β :=
  match call.input with
  | .loop (.handleEvent conn callback) =>
    if conn = i ∧ call.before.life conn = l then callback.received else []
  | _ => []

/-- What the user is given in it. -/
def takenBy (i l : ℕ) (call : InputCall β) : List β :=
  match call.input with
  | .retrieveAsString conn len =>
    if conn = i ∧ call.before.life conn = l then
      ((call.before.conn conn).inputBuffer.retrieveAsString len).elim [] Prod.fst
    else []
  | _ => []

/-- What was read in a life of a connection, in order. -/
def received (calls : List (InputCall β)) (i l : ℕ) : List β := calls.flatMap (receivedBy i l)

/-- What was taken of it, in order. -/
def taken (calls : List (InputCall β)) (i l : ℕ) : List β := calls.flatMap (takenBy i l)

/-! ## One call -/

namespace TcpConnection

variable {c : TcpConnection β}

/-- The output side leaves the input buffer alone. -/
theorem inputBuffer_frame (b : Buffer β) :
    OutputFrame fun (_ : List (Effect β)) c => c.inputBuffer = b where
  emit _ _ _ _ h := h
  channel _ _ _ h := h
  outputBuffer _ _ _ h := h
  sendFile _ _ _ h := h

theorem inputBuffer_sendInLoop [Inhabited β] (w f : SysRet) (data : List β) (len : ℕ) :
    (sendInLoop w f data len c).state.inputBuffer = c.inputBuffer := by
  obtain ⟨rest, hsend, hrest⟩ := sendInLoop_entry w f data len
  rw [hsend, Act.emit_bind, Outcome.state_after]
  exact hrest _ (inputBuffer_frame c.inputBuffer) [] c rfl

theorem inputBuffer_handleClose : (handleClose c).state.inputBuffer = c.inputBuffer := by
  have ho := handleClose_outcome c
  generalize handleClose c = o at ho ⊢
  cases ho <;> rfl

theorem inputBuffer_startReadInLoop : (startReadInLoop c).state.inputBuffer = c.inputBuffer := by
  rw [startReadInLoop_apply]
  split <;> rfl

theorem inputBuffer_stopReadInLoop : (stopReadInLoop c).state.inputBuffer = c.inputBuffer := by
  rw [stopReadInLoop_apply]
  split <;> rfl

theorem inputBuffer_shutdownInLoop : (shutdownInLoop c).state.inputBuffer = c.inputBuffer := by
  rw [shutdownInLoop_apply]

theorem inputBuffer_runInLoop {functor : Functor β} {call : Conn β Unit} (onLoop : Bool)
    (hcall : (call c).state.inputBuffer = c.inputBuffer) :
    (runInLoop onLoop functor call c).state.inputBuffer = c.inputBuffer := by
  rw [runInLoop, Act.ite_apply]
  split
  · exact hcall
  · rfl

variable [Inhabited β]

/-- **A request** leaves the input buffer alone. -/
theorem inputBuffer_request (r : Request β) : (r.call c).state.inputBuffer = c.inputBuffer := by
  cases r with
  | send onLoop message w f =>
    have hsend := inputBuffer_sendInLoop (c := c) w f message message.length
    rw [Request.call, send, Act.get_bind, Act.ite_apply]
    split
    · rw [Act.ite_apply]
      split
      · exact hsend
      · rfl
    · exact inputBuffer_runInLoop onLoop hsend
  | shutdown onLoop =>
    rw [Request.call, shutdown_apply, shuttingDown]
    split <;> rfl
  | forceClose =>
    rw [Request.call, forceClose_apply, forceClosing]
    split <;> rfl
  | startRead onLoop => exact inputBuffer_runInLoop onLoop inputBuffer_startReadInLoop
  | stopRead onLoop => exact inputBuffer_runInLoop onLoop inputBuffer_stopReadInLoop
  | setTcpNoDelay on => rfl
  | setSendFile file => rfl

/-- **A functor** leaves the input buffer alone. -/
theorem inputBuffer_functor (w f : SysRet) (g : Functor β) :
    (g.call w f c).state.inputBuffer = c.inputBuffer := by
  cases g with
  | writeCompleteCallback =>
    rw [Functor.call, Act.get_bind, Act.ite_apply]
    split <;> rfl
  | sendInLoop message =>
    cases message with
    | byValue message => exact inputBuffer_sendInLoop w f message message.length
    | byReference => rfl
  | shutdownInLoop => exact inputBuffer_shutdownInLoop
  | forceCloseInLoop =>
    rw [Functor.call, forceCloseInLoop, Act.get_bind, Act.ite_apply]
    split
    · exact inputBuffer_handleClose
    · rfl
  | startReadInLoop => exact inputBuffer_startReadInLoop
  | stopReadInLoop => exact inputBuffer_stopReadInLoop

/-- **A callback** puts what it reads behind what the buffer holds. -/
theorem readable_callback (hwf : c.inputBuffer.Wf) (callback : ChannelCallback β) :
    (callback.call c).state.inputBuffer.readable =
      c.inputBuffer.readable ++ callback.received := by
  cases callback with
  | closeCallback =>
    rw [ChannelCallback.call, inputBuffer_handleClose]
    exact (List.append_nil _).symm
  | errorCallback => exact (List.append_nil _).symm
  | writeCallback w =>
    have hkeeps := (inputBuffer_frame c.inputBuffer).keeps_handleWrite w [] c rfl
    have hsame : (handleWrite w c).state.inputBuffer = c.inputBuffer := hkeeps
    rw [ChannelCallback.call, hsame]
    exact (List.append_nil _).symm
  | readCallback r =>
    cases r with
    | err e => exact (List.append_nil _).symm
    | ok data =>
      obtain ⟨b, hb, -, hread⟩ := Buffer.readFd_spec hwf data
      rw [ChannelCallback.call, handleRead, Act.get_bind, Act.emit_bind]
      simp only [hb, Act.need_some, Act.pure_bind, Act.modify_bind, Act.ite_apply,
        Outcome.state_after]
      split
      · rw [inputBuffer_handleClose]
        exact hread
      · split <;> exact hread

omit [Inhabited β] in
/-- **The user** takes from the front. -/
theorem takeInput_spec (hwf : c.inputBuffer.Wf) {len : ℕ}
    (hlen : len ≤ c.inputBuffer.readable.length) :
    ∃ b, takeInput len c = ⟨.ok (), { c with inputBuffer := b }, []⟩ ∧ b.Wf ∧
      (c.inputBuffer.retrieveAsString len).elim [] Prod.fst ++ b.readable =
        c.inputBuffer.readable := by
  obtain ⟨b, hb, hbwf, hread⟩ := Buffer.retrieve_spec hwf hlen
  rw [hwf.length_readable] at hlen
  have hstring : (c.inputBuffer.buffer.drop c.inputBuffer.readerIndex).take len =
      c.inputBuffer.readable.take len := by
    rw [Buffer.readable, List.take_take, Nat.min_eq_left hlen]
  have hretrieve : c.inputBuffer.retrieveAsString len =
      some (c.inputBuffer.readable.take len, b) := by
    rw [Buffer.retrieveAsString, if_pos hlen, hb, hstring]
    rfl
  refine ⟨b, ?_, hbwf, ?_⟩
  · rw [takeInput, Act.get_bind, hretrieve]
    rfl
  · rw [hretrieve, hread]
    exact List.take_append_drop _ _

end TcpConnection

/-! ## The loop -/

@[simp] theorem received_append (calls calls' : List (InputCall β)) (i l : ℕ) :
    received (calls ++ calls') i l = received calls i l ++ received calls' i l :=
  List.flatMap_append

@[simp] theorem received_singleton (call : InputCall β) (i l : ℕ) :
    received [call] i l = receivedBy i l call := List.flatMap_singleton _ _

@[simp] theorem taken_append (calls calls' : List (InputCall β)) (i l : ℕ) :
    taken (calls ++ calls') i l = taken calls i l ++ taken calls' i l :=
  List.flatMap_append

@[simp] theorem taken_singleton (call : InputCall β) (i l : ℕ) :
    taken [call] i l = takenBy i l call := List.flatMap_singleton _ _

/-- The streams of all lives so far; a life to come has none. -/
structure InputsApart (calls : List (InputCall β)) (s : EventLoop β) : Prop where
  past : ∀ i < s.made, ∀ l < s.life i, taken calls i l <+: received calls i l
  current : ∀ i < s.made, taken calls i (s.life i) ++ (s.conn i).inputBuffer.readable =
    received calls i (s.life i)
  future : ∀ i l, (s.made ≤ i ∨ s.life i < l) → taken calls i l = [] ∧ received calls i l = []

namespace InputsApart

variable {calls : List (InputCall β)} {s s' : EventLoop β} {call : InputCall β} {i : ℕ}

theorem start [Inhabited β] : InputsApart [] (EventLoop.start : EventLoop β) :=
  ⟨fun _ h => absurd h (Nat.not_lt_zero _), fun _ h => absurd h (Nat.not_lt_zero _),
    fun _ _ _ => ⟨rfl, rfl⟩⟩

/-- A step that neither reads nor takes. -/
theorem quiet (h : InputsApart calls s) (htaken : ∀ i l, takenBy i l call = [])
    (hreceived : ∀ i l, receivedBy i l call = []) (hmade : s'.made = s.made)
    (hlife : s'.life = s.life)
    (hconn : ∀ i < s.made, (s'.conn i).inputBuffer = (s.conn i).inputBuffer) :
    InputsApart (calls ++ [call]) s' := by
  have hsame : ∀ i l, taken (calls ++ [call]) i l = taken calls i l ∧
      received (calls ++ [call]) i l = received calls i l := fun i l => by
    rw [taken_append, taken_singleton, htaken, received_append, received_singleton, hreceived,
      List.append_nil, List.append_nil]
    exact ⟨rfl, rfl⟩
  refine ⟨fun i hi l hl => ?_, fun i hi => ?_, fun i l hl => ?_⟩
  · rw [(hsame i l).1, (hsame i l).2]
    exact h.past i (hmade ▸ hi) l (hlife ▸ hl)
  · rw [(hsame i _).1, (hsame i _).2, hlife, hconn i (hmade ▸ hi)]
    exact h.current i (hmade ▸ hi)
  · rw [(hsame i l).1, (hsame i l).2]
    exact h.future i l (hmade ▸ hlife ▸ hl)

/-- **A call on a connection** goes on with the stream of its life, and leaves the others. -/
theorem onConnection (h : InputsApart calls s) {x : Conn β Unit} (hi : i < s.made)
    (data bytes : List β)
    (htaken : ∀ j l, takenBy j l call = if i = j ∧ s.life i = l then bytes else [])
    (hreceived : ∀ j l, receivedBy j l call = if i = j ∧ s.life i = l then data else [])
    (hmoves : bytes ++ (x (s.conn i)).state.inputBuffer.readable =
      (s.conn i).inputBuffer.readable ++ data) :
    InputsApart (calls ++ [call]) (EventLoop.onConnection i x s).state := by
  obtain ⟨hlife, hself, hothers⟩ := onConnection_frame i x s
  have hmade := made_onConnection i x s
  have hother : ∀ j l, ¬(i = j ∧ s.life i = l) → taken (calls ++ [call]) j l = taken calls j l ∧
      received (calls ++ [call]) j l = received calls j l := fun j l hne => by
    rw [taken_append, taken_singleton, htaken, received_append, received_singleton, hreceived,
      if_neg hne, if_neg hne, List.append_nil, List.append_nil]
    exact ⟨rfl, rfl⟩
  refine ⟨fun j hj l hl => ?_, fun j hj => ?_, fun j l hl => ?_⟩
  · rw [hmade] at hj
    rw [hlife] at hl
    obtain ⟨htakes, hreads⟩ := hother j l fun heq => by
      obtain ⟨rfl, rfl⟩ := heq
      exact Nat.lt_irrefl _ hl
    rw [htakes, hreads]
    exact h.past j hj l hl
  · rw [hmade] at hj
    rw [hlife]
    by_cases hji : i = j
    · subst hji
      rw [hself, taken_append, taken_singleton, htaken, received_append, received_singleton,
        hreceived, if_pos ⟨rfl, rfl⟩, if_pos ⟨rfl, rfl⟩, List.append_assoc, hmoves,
        ← List.append_assoc, h.current i hi]
    · obtain ⟨htakes, hreads⟩ := hother j (s.life j) fun heq => hji heq.1
      rw [htakes, hreads, hothers j (Ne.symm hji)]
      exact h.current j hj
  · rw [hmade, hlife] at hl
    obtain ⟨htakes, hreads⟩ := hother j l fun heq => by
      obtain ⟨rfl, rfl⟩ := heq
      omega
    rw [htakes, hreads]
    exact h.future j l hl

/-- **A life begins** with an empty stream. -/
theorem opened (h : InputsApart calls s) (htaken : ∀ i l, takenBy i l call = [])
    (hreceived : ∀ i l, receivedBy i l call = [])
    (hempty : (s'.conn i).inputBuffer.readable = [])
    (hothers : ∀ j, j ≠ i → s'.conn j = s.conn j)
    (hlives : s'.made = s.made ∧ i < s.made ∧ s'.life = Function.update s.life i (s.life i + 1) ∨
      s'.made = s.made + 1 ∧ i = s.made ∧ s'.life = s.life) :
    InputsApart (calls ++ [call]) s' := by
  have hsame : ∀ i l, taken (calls ++ [call]) i l = taken calls i l ∧
      received (calls ++ [call]) i l = received calls i l := fun i l => by
    rw [taken_append, taken_singleton, htaken, received_append, received_singleton, hreceived,
      List.append_nil, List.append_nil]
    exact ⟨rfl, rfl⟩
  have hlater : ∀ j l, (s'.made ≤ j ∨ s'.life j < l) → s.made ≤ j ∨ s.life j < l := by
    intro j l hl
    rcases hlives with ⟨hmade, -, hlife⟩ | ⟨hmade, -, hlife⟩
    · rw [hmade, hlife] at hl
      by_cases hji : j = i
      · subst hji
        rw [Function.update_self] at hl
        omega
      · rwa [Function.update_of_ne hji] at hl
    · rw [hmade, hlife] at hl
      omega
  refine ⟨fun j hj l hl => ?_, fun j hj => ?_, fun j l hl => ?_⟩
  · rw [(hsame j l).1, (hsame j l).2]
    by_cases hfuture : s.made ≤ j ∨ s.life j < l
    · rw [(h.future j l hfuture).1]
      exact List.nil_prefix
    · obtain ⟨hjm, hle⟩ := not_or.1 hfuture
      rcases Nat.lt_or_eq_of_le (Nat.not_lt.1 hle) with hlt | rfl
      · exact h.past j (Nat.not_le.1 hjm) l hlt
      · exact ⟨_, h.current j (Nat.not_le.1 hjm)⟩
  · rw [(hsame j _).1, (hsame j _).2]
    by_cases hji : j = i
    · subst hji
      have hfuture : s.made ≤ j ∨ s.life j < s'.life j := by
        rcases hlives with ⟨-, -, hlife⟩ | ⟨-, hnew, -⟩
        · right
          rw [hlife, Function.update_self]
          omega
        · exact .inl (Nat.le_of_eq hnew.symm)
      rw [(h.future j _ hfuture).1, (h.future j _ hfuture).2, hempty]
      rfl
    · have hkept : j < s.made ∧ s'.life j = s.life j := by
        rcases hlives with ⟨hmade, -, hlife⟩ | ⟨hmade, hnew, hlife⟩
        · exact ⟨hmade ▸ hj, by rw [hlife, Function.update_of_ne hji]⟩
        · refine ⟨?_, by rw [hlife]⟩
          rw [hmade] at hj
          omega
      rw [hkept.2, hothers j hji]
      exact h.current j hkept.1
  · rw [(hsame j l).1, (hsame j l).2]
    exact h.future j l (hlater j l hl)

/-- An established connection has read nothing. -/
theorem inputBuffer_connectEstablished (c : TcpConnection β) :
    (TcpConnection.connectEstablished c).state.inputBuffer = c.inputBuffer := by
  have ho := connectEstablished_outcome c
  generalize TcpConnection.connectEstablished c = o at ho ⊢
  cases ho <;> rfl

variable [Inhabited β]

theorem createConnection (h : InputsApart calls s)
    (hhandles : ∀ i, some i ∈ s.connectionsPool → i < s.made)
    (htaken : ∀ i l, takenBy i l call = []) (hreceived : ∀ i l, receivedBy i l call = [])
    (sockFd : ℤ) (connectCallback messageCallback writeCompleteCallback : Option Callback)
    (hok : (EventLoop.createConnection sockFd connectCallback messageCallback
      writeCompleteCallback s).val = .ok ()) :
    InputsApart (calls ++ [call]) (EventLoop.createConnection sockFd connectCallback
      messageCallback writeCompleteCallback s).state := by
  rcases hpool : s.connectionsPool.getLast? with _ | _ | i
  · rw [createConnection_new s _ _ _ _ hpool, Outcome.state_after]
    let s₁ := s.extended sockFd connectCallback messageCallback writeCompleteCallback
    obtain ⟨hlife, hself, hothers⟩ :=
      onConnection_frame s.made TcpConnection.connectEstablished s₁
    have hmade := made_onConnection s.made TcpConnection.connectEstablished s₁
    refine h.opened (i := s.made) htaken hreceived ?_ (fun j hj => ?_) (.inr ⟨hmade, rfl, hlife⟩)
    · have hnew : s₁.conn s.made =
          newConn sockFd connectCallback messageCallback writeCompleteCallback :=
        Function.update_self _ _ _
      rw [hself, inputBuffer_connectEstablished, hnew]
      rfl
    · exact (hothers j hj).trans (Function.update_of_ne hj _ _)
  · rw [createConnection_null s _ _ _ _ hpool] at hok
    cases hok
  · rw [createConnection_reuse s _ _ _ _ hpool, Outcome.state_after]
    let s₁ := s.reused sockFd i
    obtain ⟨hlife, hself, hothers⟩ := onConnection_frame i TcpConnection.connectEstablished s₁
    have hmade := made_onConnection i TcpConnection.connectEstablished s₁
    refine h.opened (i := i) htaken hreceived ?_ (fun j hj => ?_)
      (.inl ⟨hmade, hhandles i (List.mem_of_getLast? hpool), hlife⟩)
    · have hreset : s₁.conn i = (connectReset sockFd (s.conn i)).state :=
        Function.update_self _ _ _
      rw [hself, inputBuffer_connectEstablished, hreset]
      exact Buffer.readable_retrieveAll _
    · exact (hothers j hj).trans (Function.update_of_ne hj _ _)

theorem runFunctor (h : InputsApart calls s) {es : List (LifeEffect (Effect β))}
    (hinv : LoopInvariant Standing es s) (htaken : ∀ i l, takenBy i l call = [])
    (hreceived : ∀ i l, receivedBy i l call = []) (w f : SysRet)
    (hok : (EventLoop.runFunctor w f s).val = .ok ()) :
    InputsApart (calls ++ [call]) (EventLoop.runFunctor w f s).state := by
  cases hrunning : s.running with
  | nil =>
    rw [runFunctor_nil w f hrunning]
    exact h.quiet htaken hreceived rfl rfl fun _ _ => rfl
  | cons functor rest =>
    rw [runFunctor_cons w f hrunning] at hok ⊢
    have hrest : InputsApart calls { s with running := rest } := ⟨h.past, h.current, h.future⟩
    cases functor with
    | createConnection sockFd connectCallback messageCallback writeCompleteCallback =>
      exact hrest.createConnection hinv.handles.pool htaken hreceived _ _ _ _ hok
    | connection i life g =>
      have hi : i < s.made := hinv.handles.functors i life g (by simp [hrunning])
      refine hrest.onConnection hi [] [] ?_ ?_ ?_
      · exact fun j l => (htaken j l).trans (ite_self _).symm
      · exact fun j l => (hreceived j l).trans (ite_self _).symm
      · rw [inputBuffer_functor, List.append_nil]
        rfl

/-- **One step.** -/
theorem step (h : InputsApart calls s) {es : List (LifeEffect (Effect β))}
    (hinv : LoopInvariant Standing es s) (op : InputOp β)
    (hop : Reading calls (Call.make InputOp.exec op s)) (hok : (op.exec s).val = .ok ()) :
    InputsApart (calls ++ [Call.make InputOp.exec op s]) (op.exec s).state := by
  cases op with
  | retrieveAsString i len =>
    obtain ⟨b, htake, -, hbytes⟩ := takeInput_spec (hinv.lives.current i hop.1).input hop.2
    refine h.onConnection hop.1 [] _ (fun j l => rfl) (fun j l => (ite_self _).symm) ?_
    rw [htake, List.append_nil]
    exact hbytes
  | loop op =>
    cases op with
    | newConnection | swapFunctors =>
      exact h.quiet (fun _ _ => rfl) (fun _ _ => rfl) rfl rfl fun _ _ => rfl
    | handleEvent i callback =>
      have hi : i < s.made := hop.2
      refine h.onConnection hi _ [] (fun j l => (ite_self _).symm) (fun j l => rfl) ?_
      exact readable_callback (hinv.lives.current i hi).input callback
    | request i r =>
      refine h.onConnection hop [] [] (fun j l => (ite_self _).symm)
        (fun j l => (ite_self _).symm) ?_
      rw [inputBuffer_request, List.append_nil]
      rfl
    | runFunctor w f => exact h.runFunctor hinv (fun _ _ => rfl) (fun _ _ => rfl) w f hok

end InputsApart

/-- What the loop keeps, its users keep. -/
theorem loopInvariant_input [Inhabited β] {es : List (LifeEffect (Effect β))} {s : EventLoop β}
    (h : LoopInvariant StandingAddressed es s) (op : InputOp β) {calls : List (InputCall β)}
    (hop : Reading calls (Call.make InputOp.exec op s)) (hok : (op.exec s).val = .ok ()) :
    LoopInvariant StandingAddressed (es ++ (op.exec s).trace) (op.exec s).state := by
  cases op with
  | loop op =>
    have hscheduled : Scheduled [] (Call.make LoopOp.exec op s) := hop
    exact h.step addressed_staged op hscheduled hok
  | retrieveAsString i len =>
    refine h.onConnection hop.1 ?_
    rintro es' ⟨hstanding, haddressed⟩
    obtain ⟨b, htake, hwf, -⟩ := takeInput_spec hstanding.input hop.2
    rw [htake, List.append_nil]
    exact ⟨hstanding.inputBuffer hwf, haddressed.opened, haddressed.own⟩

/-- **Every life of every connection has an incoming stream of its own**, after every run of a loop
with users that take from the input buffers: all its bytes went through one descriptor, that of the
socket it was opened for, and what was taken in it is the beginning of what was read; in the current
life the input buffer has the rest. -/
theorem incoming_in_order [Inhabited β] {calls : List (InputCall β)} {s : EventLoop β}
    (h : Run InputOp.exec Reading EventLoop.start calls s) :
    (∀ i < s.made, ∀ l ≤ s.life i, OneDescriptor (lifeTrace (traceOf calls) i l) ∧
      taken calls i l <+: received calls i l) ∧
      ∀ i < s.made, taken calls i (s.life i) ++ (s.conn i).inputBuffer.readable =
        received calls i (s.life i) := by
  have hboth : LoopInvariant StandingAddressed (traceOf calls) s ∧ InputsApart calls s := by
    refine h.invariant (I := fun calls s => LoopInvariant StandingAddressed (traceOf calls) s ∧
      InputsApart calls s) ⟨.start _, .start⟩ ?_
    rintro calls s op ⟨hinv, happart⟩ hop hok
    refine ⟨?_, happart.step (hinv.imp fun _ _ => And.left) op hop hok⟩
    rw [traceOf_append, traceOf_singleton]
    exact loopInvariant_input hinv op hop hok
  refine ⟨fun i hi l hl => ⟨?_, ?_⟩, hboth.2.current⟩
  · obtain ⟨c, -, haddressed⟩ := hboth.1.lives.all hi hl
    exact haddressed.oneDescriptor
  · rcases Nat.lt_or_eq_of_le hl with hlt | rfl
    · exact hboth.2.past i hi l hlt
    · exact ⟨_, hboth.2.current i hi⟩

/-- The user of connection 0 takes the first bytes; it is closed with the rest unread, and is used
again for another socket. -/
theorem incoming_in_order_of_reuse :
    ∃ calls s, Run (InputOp.exec (β := ℕ)) Reading EventLoop.start calls s ∧
      (∀ l ≤ 1, OneDescriptor (lifeTrace (traceOf calls) 0 l) ∧
        taken calls 0 l <+: received calls 0 l) ∧ taken calls 0 0 = [1, 2] ∧
      received calls 0 0 = [1, 2, 3] ∧ received calls 0 1 = [7, 8, 9] ∧ taken calls 0 1 = [7, 8] ∧
      (s.conn 0).inputBuffer.readable = [9] := by
  have hrun : Run (InputOp.exec (β := ℕ)) Reading EventLoop.start _ _ :=
    run_replay [.loop (.newConnection 5 (some 0) (some 1) none), .loop .swapFunctors,
      .loop (.runFunctor (.ok 0) (.ok 0)), .loop (.handleEvent 0 (.readCallback (.ok [1, 2, 3]))),
      .retrieveAsString 0 2, .loop (.handleEvent 0 .closeCallback),
      .loop (.newConnection 8 (some 0) (some 1) none), .loop .swapFunctors,
      .loop (.runFunctor (.ok 0) (.ok 0)), .loop (.handleEvent 0 (.readCallback (.ok [7]))),
      .loop (.handleEvent 0 (.readCallback (.ok [8, 9]))), .retrieveAsString 0 2]
      (by decide +kernel)
  have horder := incoming_in_order hrun
  refine ⟨_, _, hrun, fun l hl => horder.1 0 ?_ l (Nat.le_trans hl ?_), ?_, ?_, ?_, ?_, ?_⟩
  all_goals decide +kernel

end Cannet.Net
