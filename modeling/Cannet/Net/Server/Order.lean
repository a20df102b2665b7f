import Cannet.Net.Server.Descriptors

/-!
# Connections in the order of their acceptance

A loop opens connections in the order in which it was handed their sockets, through the swaps of its
queue (`opened_in_order`). A server hands them to its loops in turn. Put together: on every loop the
connections that have been opened, and after them the sockets that wait, are those that were
accepted at the turns of that loop, in the order of their acceptance (`served_in_turn`).
-/

namespace Cannet.Net

open Foundations

variable {β : Type}

/-- The descriptor of a new or reset connection. -/
def Effect.openedFd : Effect β → Option ℤ
  | .setKeepAlive fd => some fd
  | _ => none

/-- The sockets that connections were opened for. -/
def openedFds (es : List (LifeEffect (Effect β))) : List ℤ :=
  es.filterMap fun e => e.effect.openedFd

@[simp] theorem openedFds_append (es es' : List (LifeEffect (Effect β))) :
    openedFds (es ++ es') = openedFds es ++ openedFds es' := List.filterMap_append

theorem openedFds_tag (i life : ℕ) (es : List (Effect β)) :
    openedFds (es.map (LifeEffect.mk i life)) = es.filterMap Effect.openedFd := by
  rw [openedFds, List.filterMap_map]
  rfl

/-! ## One loop -/

/-- A life opens with the socket it is for, and with no other. -/
def OpensOnce (es : List (Effect β)) (_ : TcpConnection β) : Prop :=
  ∀ e ∈ es.tail, e.openedFd = none

theorem OpensOnce.append {es es' : List (Effect β)} {c c' : TcpConnection β} (h : OpensOnce es c)
    (hes' : ∀ e ∈ es', e.openedFd = none) : OpensOnce (es ++ es') c' := by
  intro e he
  cases es with
  | nil => exact hes' e (List.mem_of_mem_tail he)
  | cons e₀ es =>
    rcases List.mem_append.1 he with hold | hnew
    · exact h e hold
    · exact hes' e hnew

section

open TcpConnection

theorem opensOnce_frame : CallFrame (OpensOnce (β := β)) where
  emit e he es c h := by
    refine h.append fun e' he' => ?_
    obtain rfl := List.mem_singleton.1 he'
    cases e' <;> first | rfl | cases he
  channel _ _ _ h := h
  inputBuffer _ _ _ h := h
  outputBuffer _ _ _ h := h
  sendFile _ _ _ h := h
  reading _ _ _ h := h

theorem opensOnce_handleClose : (handleClose (β := β)).Keeps OpensOnce := by
  intro es c h
  have ho := handleClose_outcome c
  generalize handleClose c = o at ho ⊢
  cases ho with
  | refused => exact h.append (fun _ he => by cases he)
  | unset =>
    refine h.append fun e he => ?_
    obtain rfl := List.mem_singleton.1 he
    rfl
  | closed =>
    refine h.append fun e he => ?_
    have hnone : c.closeCalls.filterMap Effect.openedFd = [] := by
      unfold closeCalls Channel.removeCalls
      split <;> rfl
    exact List.filterMap_eq_nil_iff.1 hnone e he

/-- **A call opens no connection**, unless it is `createConnection`. -/
theorem opensOnce [Inhabited β] : LifeInvariant (OpensOnce (β := β)) := by
  refine opensOnce_frame.lifeInvariant (fun _ _ _ _ _ he => by cases he)
    (fun _ _ _ _ _ he => by cases he) ?_ opensOnce_handleClose ?_ ?_
  · intro es c h hok
    have ho := connectEstablished_outcome c
    generalize TcpConnection.connectEstablished c = o at ho hok ⊢
    cases ho with
    | refused => cases hok
    | unset => cases hok
    | opened =>
      refine h.append fun e he => ?_
      have hnone : [c.readCall, .connectionCallback true].filterMap Effect.openedFd = [] := rfl
      exact List.filterMap_eq_nil_iff.1 hnone e he
  · intro onLoop es c h
    rw [shutdown_apply]
    refine h.append fun e he => ?_
    have hnone : (c.shutdownCalls onLoop).filterMap Effect.openedFd = [] := by
      unfold shutdownCalls halfClose
      split
      · cases onLoop
        · rfl
        · cases c.channel.isWriting <;> rfl
      · rfl
    exact List.filterMap_eq_nil_iff.1 hnone e he
  · intro es c h
    rw [forceClose_apply]
    refine h.append fun e he => ?_
    have hnone : c.forceCloseCalls.filterMap Effect.openedFd = [] := by
      unfold forceCloseCalls
      split <;> rfl
    exact List.filterMap_eq_nil_iff.1 hnone e he

/-- A call on a connection that has been opened opens none. -/
theorem openedFds_of_keeps {x : Conn β Unit} (hx : x.Keeps OpensOnce) (c : TcpConnection β) :
    (x c).trace.filterMap Effect.openedFd = [] := by
  have hkept := hx [.messageCallback] c (fun _ he => by cases he)
  exact List.filterMap_eq_nil_iff.2 hkept

end

namespace EventLoop

variable {s : EventLoop β} {i : ℕ}

theorem opened_onConnection {x : Conn β Unit} (hx : x.Keeps OpensOnce) (i : ℕ) (s : EventLoop β) :
    openedFds (onConnection i x s).trace = [] :=
  (openedFds_tag i (s.life i) _).trans (openedFds_of_keeps hx (s.conn i))

theorem opened_connectEstablished [Inhabited β] (i : ℕ) (s : EventLoop β) :
    openedFds (onConnection i TcpConnection.connectEstablished s).trace = [] := by
  refine (openedFds_tag i (s.life i) _).trans ?_
  have ho := TcpConnection.connectEstablished_outcome (s.conn i)
  generalize TcpConnection.connectEstablished (s.conn i) = o at ho ⊢
  cases ho <;> rfl

variable [Inhabited β]

theorem opened_createConnection (sockFd : ℤ)
    (connectCallback messageCallback writeCompleteCallback : Option Callback)
    (hok : (createConnection sockFd connectCallback messageCallback writeCompleteCallback s).val =
      .ok ()) :
    openedFds (createConnection sockFd connectCallback messageCallback writeCompleteCallback
        s).trace = [sockFd] ∧
      (createConnection sockFd connectCallback messageCallback writeCompleteCallback
        s).state.awaiting = s.awaiting := by
  rcases hpool : s.connectionsPool.getLast? with _ | _ | i
  · rw [createConnection_new s _ _ _ _ hpool, Outcome.trace_after, openedFds_append,
      opened_connectEstablished, Outcome.state_after, awaiting_onConnection]
    exact ⟨rfl, rfl⟩
  · rw [createConnection_null s _ _ _ _ hpool] at hok
    cases hok
  · rw [createConnection_reuse s _ _ _ _ hpool, Outcome.trace_after, openedFds_append,
      opened_connectEstablished, Outcome.state_after, awaiting_onConnection]
    exact ⟨rfl, rfl⟩

/-- **One step of the loop** opens the connection whose socket waits first, or none. -/
theorem opened_step (op : LoopOp β) {calls : List (LoopCall β)}
    (hop : Scheduled calls (Call.make LoopOp.exec op s)) (hok : (op.exec s).val = .ok ()) :
    openedFds (op.exec s).trace ++ (op.exec s).state.awaiting = s.awaiting ++ op.given := by
  cases op with
  | newConnection sockFd connectCallback messageCallback writeCompleteCallback =>
    change (s.running ++ (s.functors ++ [_])).filterMap LoopFunctor.socket = _
    rw [← List.append_assoc, awaiting_append]
    rfl
  | swapFunctors =>
    have hrunning : s.running = [] := List.isEmpty_iff.1 hop
    change (s.functors ++ []).filterMap LoopFunctor.socket = s.awaiting ++ []
    rw [awaiting, hrunning, List.append_nil, List.append_nil, List.nil_append]
  | handleEvent i callback =>
    have hnone := opened_onConnection (opensOnce.handleEvent callback) i s
    have hsame := awaiting_onConnection i callback.call s
    rw [LoopOp.exec, hnone, hsame, List.nil_append]
    exact (List.append_nil _).symm
  | request i r =>
    have hnone := opened_onConnection (opensOnce.request r) i s
    have hsame := awaiting_onConnection i r.call s
    rw [LoopOp.exec, hnone, hsame, List.nil_append]
    exact (List.append_nil _).symm
  | runFunctor w f =>
    have hgiven : s.awaiting ++ (LoopOp.runFunctor (β := β) w f).given = s.awaiting :=
      List.append_nil _
    rw [hgiven]
    rw [LoopOp.exec] at hok ⊢
    cases hrunning : s.running with
    | nil =>
      rw [runFunctor_nil w f hrunning]
      rfl
    | cons functor rest =>
      have hawaiting := awaiting_of_running hrunning
      rw [runFunctor_cons w f hrunning] at hok ⊢
      cases functor with
      | createConnection sockFd connectCallback messageCallback writeCompleteCallback =>
        obtain ⟨hopened, hwaits⟩ := opened_createConnection (s := { s with running := rest }) sockFd
          connectCallback messageCallback writeCompleteCallback hok
        rw [callFunctor, hopened, hwaits, hawaiting]
        rfl
      | connection i life g =>
        have hnone := opened_onConnection (opensOnce.functor w f g) i { s with running := rest }
        have hsame := awaiting_onConnection i (g.call w f) { s with running := rest }
        rw [callFunctor, hnone, hsame, hawaiting]
        rfl

end EventLoop

/-- **A loop opens its connections in order**: those it has opened, and the sockets that wait, are
those it was handed. -/
theorem opened_in_order [Inhabited β] {calls : List (LoopCall β)} {s : EventLoop β}
    (h : Run LoopOp.exec Scheduled EventLoop.start calls s) :
    openedFds (traceOf calls) ++ s.awaiting = calls.flatMap fun call => call.input.given := by
  refine h.invariant (I := fun calls s => openedFds (traceOf calls) ++ s.awaiting =
    calls.flatMap fun call => call.input.given) rfl ?_
  intro calls s op horder hop hok
  rw [traceOf_append, traceOf_singleton, openedFds_append, List.append_assoc, Call.make_outcome,
    EventLoop.opened_step op hop hok, ← List.append_assoc, horder, List.flatMap_append,
    List.flatMap_singleton, Call.make_input]

/-! ## All loops -/

/-- Those of the sockets accepted at the turns of a loop. -/
def turnsOf (threadPool : EventLoopThreadPool) (ptr : LoopPtr) (accepted : List ℤ) : List ℤ :=
  (accepted.zipIdx.filter fun x => threadPool.turn x.2 = ptr).map Prod.fst

theorem turnsOf_append (threadPool : EventLoopThreadPool) (ptr : LoopPtr) (accepted : List ℤ)
    (fd : ℤ) : turnsOf threadPool ptr (accepted ++ [fd]) =
      turnsOf threadPool ptr accepted ++
        if threadPool.turn accepted.length = ptr then [fd] else [] := by
  rw [turnsOf, List.zipIdx_append, List.filter_append, List.map_append, turnsOf]
  congr 1
  by_cases hturn : threadPool.turn accepted.length = ptr
  · simp [hturn]
  · simp [hturn]

/-- The turns so far are the same while the loops are. -/
theorem turnsOf_congr {threadPool threadPool' : EventLoopThreadPool} {accepted : List ℤ}
    (h : ∀ i < accepted.length, threadPool'.turn i = threadPool.turn i) (ptr : LoopPtr) :
    turnsOf threadPool' ptr accepted = turnsOf threadPool ptr accepted := by
  rw [turnsOf, turnsOf]
  congr 1
  refine List.filter_congr fun x hx => ?_
  have hlt : x.2 < accepted.length := by
    have hsome := List.mk_mem_zipIdx_iff_getElem?.1 hx
    exact (List.getElem?_eq_some_iff.1 hsome).1
  rw [h x.2 hlt]

/-- An accepted socket finds the pool's numbers to agree. -/
def ServerOp.InStep (s : Server β) : ServerOp β → Prop
  | accept _ => s.threadPool.loops ≠ [] → s.threadPool.Agrees
  | _ => True

instance (s : Server β) : DecidablePred (ServerOp.InStep s)
  | .accept _ => inferInstanceAs (Decidable (s.threadPool.loops ≠ [] → s.threadPool.Agrees))
  | .setThreadNum _ | .setConnectionCallback _ | .setMessageCallback _
  | .setWriteCompleteCallback _ | .start | .onLoop .. | .openFile _ | .closeFile _ => isTrue trivial

section Server

variable [Inhabited β] {calls : List (ServerCall β)} {s : Server β}

/-- What a step of the process is on a loop, it does there. -/
theorem onLoopTrace_step (op : ServerOp β) (hok : (op.exec s).val = .ok ()) (ptr : LoopPtr) :
    onLoopTrace ptr (op.exec s).trace =
      traceOf (loopCallOn ptr (Call.make ServerOp.exec op s)).toList := by
  cases op with
  | setThreadNum | setConnectionCallback | setMessageCallback | setWriteCompleteCallback
  | openFile | closeFile => rfl
  | start =>
    rw [ServerOp.exec, Server.start, Act.get_bind, Act.ite_apply]
    split <;> rfl
  | accept connFd =>
    obtain ⟨ptr', threadPool, hnext, hround⟩ := Server.acceptRound_returned hok
    rw [ServerOp.exec, hround, loopCallOn, Call.make_input, ServerOp.loopOp]
    split <;> rfl
  | onLoop ptr' op =>
    rw [ServerOp.exec, Server.onLoop, loopCallOn, Call.make_input, ServerOp.loopOp, onLoopTrace,
      List.filterMap_map]
    by_cases hptr : ptr' = ptr
    · subst hptr
      have hall : (op.exec (s.loops ptr')).trace.filterMap
          ((fun e : ServerEffect β => if e.ptr = ptr' then some e.effect else none) ∘
            ServerEffect.mk ptr') = (op.exec (s.loops ptr')).trace := by
        rw [← List.filterMap_some (l := (op.exec (s.loops ptr')).trace), List.filterMap_filterMap]
        exact List.filterMap_congr fun e _ => if_pos rfl
      simp only [hall, if_true, Option.map_some, Option.toList_some, traceOf_singleton,
        Call.make_outcome, Call.make_before]
    · have hnone : (op.exec (s.loops ptr')).trace.filterMap
          ((fun e : ServerEffect β => if e.ptr = ptr then some e.effect else none) ∘
            ServerEffect.mk ptr') = [] :=
        List.filterMap_eq_nil_iff.2 fun e _ => if_neg hptr
      simp only [hnone, if_neg hptr, Option.map_none, Option.toList_none, traceOf_nil]

/-- A step that accepts nothing changes no turn that was taken, and hands no socket to a loop. -/
theorem inTurn_step {k : ℕ} (h : s.threadPool.InTurn k) (op : ServerOp β)
    (hop : Serving calls (Call.make ServerOp.exec op s)) (hok : (op.exec s).val = .ok ())
    (hidle : acceptedBy (Call.make ServerOp.exec op s) = []) :
    (op.exec s).state.threadPool.InTurn k ∧
      (∀ i < k, (op.exec s).state.threadPool.turn i = s.threadPool.turn i) ∧
      ∀ ptr, ∀ call ∈ loopCallOn ptr (Call.make ServerOp.exec op s), call.input.given = [] := by
  cases op with
  | setThreadNum numThreads =>
    rw [ServerOp.exec, Server.setThreadNum_returned hok]
    exact ⟨h.setThreadNum _, fun _ _ => rfl, fun _ _ hcall => by cases hcall⟩
  | setConnectionCallback | setMessageCallback | setWriteCompleteCallback | openFile | closeFile =>
    exact ⟨h, fun _ _ => rfl, fun _ _ hcall => by cases hcall⟩
  | start =>
    rcases Server.start_returned hok with hsame | ⟨hunstarted, hpool, hstart⟩
    · rw [ServerOp.exec, hsame]
      exact ⟨h, fun _ _ => rfl, fun _ _ hcall => by cases hcall⟩
    · have hallowed : LoopPoolOp.start.Allowed s.threadPool := hunstarted
      have hinStep : LoopPoolOp.start.InStep s.threadPool := fun heq => (by cases heq)
      obtain ⟨s', es, hexec, hturn, hkeeps, -⟩ := LoopPoolOp.exec_spec h hallowed hinStep
      obtain ⟨-, rfl, rfl⟩ := Outcome.mk.inj (hpool.symm.trans hexec)
      rw [ServerOp.exec, hstart]
      exact ⟨hturn, hkeeps, fun _ _ hcall => by cases hcall⟩
  | accept connFd => cases hidle
  | onLoop ptr op =>
    refine ⟨h, fun _ _ => rfl, fun ptr' call hcall => ?_⟩
    have hgiven : op.given = [] := by
      have hold := hop.2.1
      cases op <;> first | rfl | cases hold
    rw [loopCallOn, Call.make_input, ServerOp.loopOp] at hcall
    by_cases hptr : ptr = ptr'
    · rw [if_pos hptr] at hcall
      obtain rfl := Option.some.inj hcall
      exact hgiven
    · rw [if_neg hptr] at hcall
      cases hcall

/-- The invariant of the runs in which the loops are taken in turn. -/
structure ServedInOrder (calls : List (ServerCall β)) (s : Server β) : Prop where
  turns : s.threadPool.InTurn (calls.flatMap acceptedBy).length
  given : ∀ ptr, ((calls.filterMap (loopCallOn ptr)).flatMap fun call => call.input.given) =
    turnsOf s.threadPool ptr (calls.flatMap acceptedBy)
  trace : ∀ ptr, traceOf (calls.filterMap (loopCallOn ptr)) = onLoopTrace ptr (traceOf calls)

theorem ServedInOrder.step (h : ServedInOrder calls s) (op : ServerOp β)
    (hop : Serving calls (Call.make ServerOp.exec op s)) (hstep : op.InStep s)
    (hok : (op.exec s).val = .ok ()) :
    ServedInOrder (calls ++ [Call.make ServerOp.exec op s]) (op.exec s).state := by
  let call := Call.make ServerOp.exec op s
  have hcalls : ∀ ptr, (calls ++ [call]).filterMap (loopCallOn ptr) =
      calls.filterMap (loopCallOn ptr) ++ (loopCallOn ptr call).toList := fun ptr => by
    rw [List.filterMap_append]
    cases hcall : loopCallOn ptr call <;> simp [hcall]
  have htrace : ∀ ptr, traceOf ((calls ++ [call]).filterMap (loopCallOn ptr)) =
      onLoopTrace ptr (traceOf (calls ++ [call])) := fun ptr => by
    rw [hcalls, traceOf_append, traceOf_append, traceOf_singleton, onLoopTrace,
      List.filterMap_append, h.trace]
    exact congrArg _ (onLoopTrace_step op hok ptr).symm
  by_cases hidle : acceptedBy call = []
  · obtain ⟨hturn, hkeeps, hnone⟩ := inTurn_step h.turns op hop hok hidle
    have haccepted : (calls ++ [call]).flatMap acceptedBy = calls.flatMap acceptedBy := by
      rw [List.flatMap_append, List.flatMap_singleton, hidle, List.append_nil]
    refine ⟨?_, fun ptr => ?_, htrace⟩
    · rw [haccepted]
      exact hturn
    · have hgiven : ((loopCallOn ptr call).toList.flatMap fun call => call.input.given) = [] :=
        List.flatMap_eq_nil_iff.2 fun call' hcall' => hnone ptr call' (Option.mem_toList.1 hcall')
      rw [hcalls, List.flatMap_append, hgiven, List.append_nil, haccepted, turnsOf_congr hkeeps,
        h.given]
  · cases op with
    | accept connFd =>
      obtain ⟨ptr, threadPool, hnext, hround⟩ := Server.acceptRound_returned hok
      have hstarted : s.threadPool.started = true := by
        by_contra hnot
        rw [EventLoopThreadPool.getNextLoop, Act.get_bind, Act.check_neg _ hnot] at hnext
        cases hnext
      obtain ⟨threadPool', hnext', hturn, hloops, hbase⟩ := h.turns.getNextLoop hstarted hstep
      obtain ⟨-, rfl, hptr⟩ := Outcome.mk.inj (hnext.symm.trans hnext')
      obtain rfl := List.singleton_inj.1 hptr
      have hsame : ∀ i, threadPool.turn i = s.threadPool.turn i := fun i => by
        rw [EventLoopThreadPool.turn, EventLoopThreadPool.turn, hloops, hbase]
      have haccepted : (calls ++ [call]).flatMap acceptedBy =
          calls.flatMap acceptedBy ++ [connFd] := by
        rw [List.flatMap_append, List.flatMap_singleton]
        rfl
      have hstate : (ServerOp.exec (.accept connFd) s).state.threadPool = threadPool := by
        rw [ServerOp.exec, hround]
      refine ⟨?_, fun ptr => ?_, htrace⟩
      · rw [haccepted, List.length_append, hstate]
        exact hturn
      · have hgiven : ((loopCallOn ptr call).toList.flatMap fun call => call.input.given) =
            if s.threadPool.turn (calls.flatMap acceptedBy).length = ptr then [connFd] else [] := by
          rw [loopCallOn, Call.make_input, ServerOp.loopOp, Server.nextLoop, Call.make_before,
            hnext]
          simp only [List.head?_cons, Option.some.injEq]
          split <;> rfl
        rw [hcalls, List.flatMap_append, hgiven, haccepted, hstate, turnsOf_append, hsame,
          turnsOf_congr fun i _ => hsame i, h.given]
    | _ => exact absurd rfl hidle

/-- **Connections are served in turn.** In every run of a server in which each accepted socket finds
the pool's numbers to agree, the connections opened on a loop, and after them the sockets that wait
for it, are those accepted at its turns, in order. -/
theorem served_in_turn {files : List ℤ}
    (h : Run ServerOp.exec (fun calls call => Serving calls call ∧ call.input.InStep call.before)
      (Server.init files) calls s) (ptr : LoopPtr) :
    openedFds (onLoopTrace ptr (traceOf calls)) ++ (s.loops ptr).awaiting =
      turnsOf s.threadPool ptr (calls.flatMap acceptedBy) := by
  have hboth : Serves calls s ∧ ServedInOrder calls s := by
    refine h.invariant (I := fun calls s => Serves calls s ∧ ServedInOrder calls s)
      ⟨.init files, ⟨⟨fun _ => ⟨rfl, rfl, rfl⟩, fun hne => absurd rfl hne, 0, rfl⟩, fun _ => rfl,
        fun _ => rfl⟩⟩ ?_
    rintro calls s op ⟨hserves, horder⟩ ⟨hop, hstep⟩ hok
    exact ⟨hserves.step op hop hok, horder.step op hop hstep hok⟩
  rw [← hboth.2.given ptr, ← hboth.2.trace ptr]
  exact opened_in_order (hboth.1.runs ptr)

end Server

/-- Two threads; four sockets are accepted while the loops open connections and close them. -/
theorem served_in_turn_of_two :
    ∃ calls s, Run (ServerOp.exec (β := ℕ))
        (fun calls call => Serving calls call ∧ call.input.InStep call.before)
        (Server.init [0, 1, 2]) calls s ∧
      openedFds (onLoopTrace (.thread 0) (traceOf calls)) ++ (s.loops (.thread 0)).awaiting =
        turnsOf s.threadPool (.thread 0) (calls.flatMap acceptedBy) ∧
      calls.flatMap acceptedBy = [5, 6, 7, 5, 8] ∧
      openedFds (onLoopTrace (.thread 0) (traceOf calls)) = [5] ∧
      (s.loops (.thread 0)).awaiting = [7, 8] ∧ (s.loops (.thread 1)).awaiting = [6, 5] := by
  have hrun : Run (ServerOp.exec (β := ℕ))
      (fun calls call => Serving calls call ∧ call.input.InStep call.before)
      (Server.init [0, 1, 2]) _ _ :=
    run_replay [.setThreadNum 2, .start, .accept 5, .accept 6, .onLoop (.thread 0) .swapFunctors,
      .onLoop (.thread 0) (.runFunctor (.ok 0) (.ok 0)), .accept 7,
      .onLoop (.thread 0) (.handleEvent 0 .closeCallback), .accept 5,
      .onLoop (.thread 0) .swapFunctors, .accept 8] (by decide +kernel)
  exact ⟨_, _, hrun, served_in_turn hrun _, by decide +kernel, by decide +kernel,
    by decide +kernel, by decide +kernel⟩

end Cannet.Net
