import Cannet.Net.Connection.Delivery
import Cannet.Net.Loop.Events

/-!
# The loop does not abort

What an assertion, a missing callback or a dangling reference in the functions of a connection can
stop is the whole process. Over the cycle of a loop none of them does (`loop_never_aborts`), under
the conditions of `Proper`: the server's callbacks are set, a thread that is not the loop's sends
only through a connected connection, the kernel takes no more than it is offered and answers no read
of a closed descriptor, and no file goes out whole in the call that sends it while a completion is
to be reported. The code makes no check of its own in any of these places.

`Tame` is what a call of a connection does when it returns; each function has its lemma.
-/

namespace Cannet.Net

open Foundations EventLoop TcpConnection LoopCycle

variable {β : Type}

/-- The functor can be run, by a connection with this completion callback. -/
def Functor.Runs (writeCompleteCallback : Option Callback) : Functor β → Prop
  | .writeCompleteCallback => writeCompleteCallback.isSome = true
  | .sendInLoop _ => False
  | _ => True

namespace TcpConnection

/-- The call returns; the connection keeps its callbacks, and what is queued can be run. -/
structure Tame (c : TcpConnection β) (o : Outcome Abort (Effect β) (TcpConnection β) Unit) :
    Prop where
  val : o.val = .ok ()
  connectionCallback : o.state.connectionCallback = c.connectionCallback
  messageCallback : o.state.messageCallback = c.messageCallback
  writeCompleteCallback : o.state.writeCompleteCallback = c.writeCompleteCallback
  queued : ∀ g ∈ o.trace.filterMap Effect.queued, g.Runs c.writeCompleteCallback

section Queued

variable (c : TcpConnection β)

@[simp] theorem queued_closeCalls : c.closeCalls.filterMap Effect.queued = [] := by
  unfold closeCalls Channel.removeCalls
  split <;> rfl

@[simp] theorem queued_halfClose : c.halfClose.filterMap Effect.queued = [] := by
  unfold halfClose
  split <;> rfl

@[simp] theorem queued_writingOnCalls (ch : Channel) :
    (ch.writingOnCalls : List (Effect β)).filterMap Effect.queued = [] := by
  unfold Channel.writingOnCalls
  split <;> rfl

theorem runs_completion : ∀ g ∈ c.completion.filterMap Effect.queued,
    g.Runs c.writeCompleteCallback := by
  unfold completion
  split
  · rename_i hcb
    intro g hg
    obtain rfl := List.mem_singleton.1 hg
    exact hcb
  · exact nofun

theorem runs_sentCalls : ∀ g ∈ c.sentCalls.filterMap Effect.queued,
    g.Runs c.writeCompleteCallback := by
  have hrest : (if c.state = .kDisconnecting then [Effect.shutdownWrite (β := β) c.sockFd]
      else []).filterMap Effect.queued = [] := by
    split <;> rfl
  rw [sentCalls, List.filterMap_append, hrest, List.append_nil]
  exact c.runs_completion

end Queued

section Calls

variable {c : TcpConnection β}

/-- A call that queues nothing. -/
theorem Tame.of_quiet {c' : TcpConnection β} {es : List (Effect β)}
    (hconnection : c'.connectionCallback = c.connectionCallback)
    (hmessage : c'.messageCallback = c.messageCallback)
    (hcomplete : c'.writeCompleteCallback = c.writeCompleteCallback)
    (hes : es.filterMap Effect.queued = []) : c.Tame ⟨.ok (), c', es⟩ :=
  ⟨rfl, hconnection, hmessage, hcomplete, fun g hg => by
    simp only [hes] at hg
    cases hg⟩

theorem tame_handleClose (hlive : c.Live) (hcb : c.closeCallback = true) :
    c.Tame (handleClose c) := by
  rw [handleClose_live hlive hcb]
  exact .of_quiet rfl rfl rfl c.queued_closeCalls

theorem tame_handleError : c.Tame (handleError c) := .of_quiet rfl rfl rfl rfl

/-- A read that returns data or the end of the stream is of a live connection. -/
theorem tame_handleRead [Inhabited β] (hwf : c.inputBuffer.Wf) (hcb : c.closeCallback = true)
    (hmessage : c.messageCallback.isSome = true) {r : ReadRet β}
    (hlive : ∀ received, r = .ok received → c.Live) : c.Tame (handleRead r c) := by
  have ho := handleRead_outcome hwf r
  generalize handleRead r c = o at ho ⊢
  cases ho with
  | failed e => exact .of_quiet rfl rfl rfl rfl
  | ended b _ =>
    have hc : TcpConnection.Live { c with inputBuffer := b } := hlive [] rfl
    have htame := tame_handleClose hc hcb
    exact ⟨htame.val, htame.connectionCallback, htame.messageCallback,
      htame.writeCompleteCallback, htame.queued⟩
  | received data _ _ b _ => exact .of_quiet rfl rfl rfl rfl
  | unset data _ hunset b _ =>
    rw [hmessage] at hunset
    cases hunset

theorem tame_handleWrite {w : SysRet} (hwf : c.outputBuffer.Wf)
    (hw : c.channel.isWriting = true → c.outputBuffer.readable ≠ [] →
      ∀ n, w = .ok n → n ≤ c.outputBuffer.readable.length) : c.Tame (handleWrite w c) := by
  have ho := handleWrite_cases hwf hw
  generalize handleWrite w c = o at ho ⊢
  cases ho with
  | idle => exact .of_quiet rfl rfl rfl rfl
  | nothing => exact .of_quiet rfl rfl rfl rfl
  | failed => exact .of_quiet rfl rfl rfl rfl
  | short => exact .of_quiet rfl rfl rfl rfl
  | drained => exact ⟨rfl, rfl, rfl, rfl, c.runs_sentCalls⟩
  | fileFailed => exact .of_quiet rfl rfl rfl rfl
  | fileShort => exact .of_quiet rfl rfl rfl rfl
  | fileSent => exact ⟨rfl, rfl, rfl, rfl, c.runs_sentCalls⟩

theorem runs_direct {w : SysRet} {data : List β} {d : Written} {es : List (Effect β)}
    (hd : Direct w data c d es) :
    ∀ g ∈ es.filterMap Effect.queued, g.Runs c.writeCompleteCallback := by
  cases hd with
  | skipped => exact nofun
  | failed => exact nofun
  | wrote n =>
    split
    · exact c.runs_completion
    · exact nofun

/-- The `sendfile` does not finish the attached file while a completion is to be reported. -/
def SparesFile (c : TcpConnection β) (f : SysRet) : Prop :=
  ∀ file ∈ c.sendFile, c.writeCompleteCallback.isSome = true → f.count < file.sendLen

instance (c : TcpConnection β) : DecidablePred c.SparesFile := fun _ =>
  inferInstanceAs (Decidable (∀ _ ∈ _, _))

theorem tame_sendInLoop [Inhabited β] (w : SysRet) {f : SysRet} (data : List β)
    (hwf : c.outputBuffer.Wf) (hfile : c.SparesFile f) :
    c.Tame (sendInLoop w f data data.length c) := by
  have ho := sendInLoop_outcome w f data hwf
  generalize sendInLoop w f data data.length c = o at ho ⊢
  cases ho with
  | disconnected => exact .of_quiet rfl rfl rfl rfl
  | buffered d es hd _ _ b _ _ =>
    refine ⟨rfl, rfl, rfl, rfl, ?_⟩
    change ∀ g ∈ (es ++ _).filterMap Effect.queued, _
    rw [List.filterMap_append, queued_writingOnCalls, List.append_nil]
    exact runs_direct hd
  | finished d es hd =>
    have hruns := runs_direct hd
    exact ⟨rfl, rfl, rfl, rfl, hruns⟩
  | file d es hd _ file hattached o ho =>
    have hquiet : c.Tame o := by
      cases ho with
      | failed => exact .of_quiet rfl rfl rfl rfl
      | blocked => exact .of_quiet rfl rfl rfl (queued_writingOnCalls _)
      | short => exact .of_quiet rfl rfl rfl (queued_writingOnCalls _)
      | sent => exact .of_quiet rfl rfl rfl rfl
      | released n hf hn hcb =>
        have hless := hfile file hattached hcb
        rw [hf, SysRet.count] at hless
        omega
    refine ⟨hquiet.val, hquiet.connectionCallback, hquiet.messageCallback,
      hquiet.writeCompleteCallback, ?_⟩
    change ∀ g ∈ (es ++ _).filterMap Effect.queued, _
    rw [List.filterMap_append]
    exact List.forall_mem_append.2 ⟨runs_direct hd, hquiet.queued⟩

theorem tame_startReadInLoop : c.Tame (startReadInLoop c) := by
  rw [startReadInLoop_apply]
  split <;> exact .of_quiet rfl rfl rfl rfl

theorem tame_stopReadInLoop : c.Tame (stopReadInLoop c) := by
  rw [stopReadInLoop_apply]
  split <;> exact .of_quiet rfl rfl rfl rfl

theorem tame_shutdownInLoop : c.Tame (shutdownInLoop c) := by
  rw [shutdownInLoop_apply]
  exact .of_quiet rfl rfl rfl c.queued_halfClose

theorem tame_runInLoop {functor : Functor β} {call : Conn β Unit} (onLoop : Bool)
    (hcall : c.Tame (call c)) (hruns : functor.Runs c.writeCompleteCallback) :
    c.Tame (runInLoop onLoop functor call c) := by
  rw [runInLoop, Act.ite_apply]
  split
  · exact hcall
  · refine ⟨rfl, rfl, rfl, rfl, fun g hg => ?_⟩
    obtain rfl := List.mem_singleton.1 hg
    exact hruns

theorem tame_shutdown (onLoop : Bool) : c.Tame (shutdown onLoop c) := by
  rw [shutdown, Act.get_bind, Act.ite_apply]
  split
  · let c₁ : TcpConnection β := { c with state := .kDisconnecting }
    have htame : c₁.Tame (runInLoop onLoop .shutdownInLoop shutdownInLoop c₁) :=
      tame_runInLoop onLoop tame_shutdownInLoop trivial
    exact ⟨htame.val, htame.connectionCallback, htame.messageCallback,
      htame.writeCompleteCallback, htame.queued⟩
  · exact .of_quiet rfl rfl rfl rfl

theorem tame_forceClose : c.Tame (forceClose c) := by
  rw [forceClose_apply, forceClosing, forceCloseCalls]
  split
  · refine ⟨rfl, rfl, rfl, rfl, fun g hg => ?_⟩
    obtain rfl := List.mem_singleton.1 hg
    trivial
  · exact .of_quiet rfl rfl rfl rfl

end Calls

end TcpConnection

/-! ## What the code relies on -/

/-- A request that the connection can carry out. -/
def Request.Proper (c : TcpConnection β) : Request β → Prop
  | send true _ _ f => c.SparesFile f
  | send false _ _ _ => c.state = .kConnected
  | _ => True

/-- What a callback may be told by the kernel. -/
def ChannelCallback.Proper (c : TcpConnection β) : ChannelCallback β → Prop
  | readCallback (.ok _) => c.Live
  | writeCallback w =>
    c.channel.isWriting = true → c.outputBuffer.readable.isEmpty = false →
      w.count ≤ c.outputBuffer.readable.length
  | _ => True

instance (c : TcpConnection β) : DecidablePred (Request.Proper c)
  | .send true _ _ f => inferInstanceAs (Decidable (c.SparesFile f))
  | .send false _ _ _ => inferInstanceAs (Decidable (_ = _))
  | .shutdown _ | .forceClose | .startRead _ | .stopRead _ | .setTcpNoDelay _ | .setSendFile _ =>
    isTrue trivial

instance (c : TcpConnection β) : DecidablePred (ChannelCallback.Proper c)
  | .readCallback (.ok _) => inferInstanceAs (Decidable c.Live)
  | .writeCallback _ => inferInstanceAs (Decidable (_ → _ → _))
  | .readCallback (.err _) | .closeCallback | .errorCallback => isTrue trivial

/-- The functors of a server that has its connection and message callbacks set. -/
def LoopFunctor.Runs (s : EventLoop β) : LoopFunctor β → Prop
  | createConnection _ connectCallback messageCallback _ =>
    connectCallback.isSome = true ∧ messageCallback.isSome = true
  | connection i _ g => g.Runs (s.conn i).writeCompleteCallback

namespace TcpConnection

variable [Inhabited β] {c : TcpConnection β} {es : List (Effect β)}

theorem tame_request (hwf : c.outputBuffer.Wf) {r : Request β} (hproper : r.Proper c) :
    c.Tame (r.call c) := by
  cases r with
  | send onLoop message w f =>
    cases onLoop with
    | true =>
      have htame := tame_sendInLoop w message hwf hproper
      rw [Request.call, send, Act.get_bind, Act.ite_apply]
      split
      · exact htame
      · exact htame
    | false =>
      rw [Request.call, send_connected_other_thread w f message hproper]
      exact .of_quiet rfl rfl rfl rfl
  | shutdown onLoop => exact tame_shutdown onLoop
  | forceClose => exact tame_forceClose
  | startRead onLoop => exact tame_runInLoop onLoop tame_startReadInLoop trivial
  | stopRead onLoop => exact tame_runInLoop onLoop tame_stopReadInLoop trivial
  | setTcpNoDelay on => exact .of_quiet rfl rfl rfl rfl
  | setSendFile file => exact .of_quiet rfl rfl rfl rfl

theorem tame_callback (h : Standing es c) (hmessage : c.messageCallback.isSome = true)
    {callback : ChannelCallback β} (hproper : callback.Proper c)
    (hclose : callback = .closeCallback → c.Live) : c.Tame (callback.call c) := by
  cases callback with
  | closeCallback => exact tame_handleClose (hclose rfl) h.closeCallback
  | errorCallback => exact tame_handleError
  | readCallback r =>
    refine tame_handleRead h.input h.closeCallback hmessage fun received hr => ?_
    subst hr
    exact hproper
  | writeCallback w =>
    refine tame_handleWrite h.output fun hon hne n hw => ?_
    subst hw
    exact hproper hon (Bool.eq_false_iff.2 fun hnil => hne (List.isEmpty_iff.1 hnil))

omit [Inhabited β] in
theorem tame_forceCloseInLoop (hcb : c.closeCallback = true) : c.Tame (forceCloseInLoop c) := by
  rw [forceCloseInLoop, Act.get_bind, Act.ite_apply]
  split
  · rename_i hlive
    exact tame_handleClose hlive hcb
  · exact .of_quiet rfl rfl rfl rfl

theorem tame_functor (h : Standing es c) (w f : SysRet) {g : Functor β}
    (hruns : g.Runs c.writeCompleteCallback) : c.Tame (g.call w f c) := by
  cases g with
  | writeCompleteCallback =>
    have hcb : c.writeCompleteCallback.isSome = true := hruns
    rw [Functor.call, Act.get_bind, Act.ite_apply, if_pos hcb]
    exact .of_quiet rfl rfl rfl rfl
  | sendInLoop message => cases hruns
  | shutdownInLoop => exact tame_shutdownInLoop
  | forceCloseInLoop => exact tame_forceCloseInLoop h.closeCallback
  | startReadInLoop => exact tame_startReadInLoop
  | stopReadInLoop => exact tame_stopReadInLoop

end TcpConnection

/-! ## The loop -/

/-- Every connection has its callbacks, and every functor can be run. -/
structure Ready (s : EventLoop β) : Prop where
  connectionCallback : ∀ i < s.made, (s.conn i).connectionCallback.isSome = true
  messageCallback : ∀ i < s.made, (s.conn i).messageCallback.isSome = true
  functors : ∀ functor ∈ s.running ++ s.functors, functor.Runs s

namespace Ready

variable {s : EventLoop β} {es : List (LifeEffect (Effect β))} {i : ℕ}

theorem start [Inhabited β] : Ready (EventLoop.start : EventLoop β) :=
  ⟨fun _ h => absurd h (Nat.not_lt_zero _), fun _ h => absurd h (Nat.not_lt_zero _),
    fun _ h => absurd h List.not_mem_nil⟩

/-- **A tame call** on a connection returns, and leaves the loop ready. -/
theorem onConnection (h : Ready s) {x : Conn β Unit} (hx : (s.conn i).Tame (x (s.conn i))) :
    (EventLoop.onConnection i x s).val = .ok () ∧ Ready (EventLoop.onConnection i x s).state := by
  obtain ⟨s', hs', hp⟩ := onConnection_spec i x s
  have hconn : s'.conn = Function.update s.conn i (x (s.conn i)).state := hp.conn
  have hmade : s'.made = s.made := hp.made
  have hkeep : ∀ j, (s'.conn j).connectionCallback = (s.conn j).connectionCallback ∧
      (s'.conn j).messageCallback = (s.conn j).messageCallback ∧
        (s'.conn j).writeCompleteCallback = (s.conn j).writeCompleteCallback := by
    intro j
    rw [hconn]
    by_cases hj : j = i
    · subst hj
      rw [Function.update_self]
      exact ⟨hx.connectionCallback, hx.messageCallback, hx.writeCompleteCallback⟩
    · rw [Function.update_of_ne hj]
      exact ⟨rfl, rfl, rfl⟩
  rw [hs']
  refine ⟨hx.val, fun j hj => ?_, fun j hj => ?_, ?_⟩
  · rw [(hkeep j).1]
    exact h.connectionCallback j (hmade ▸ hj)
  · rw [(hkeep j).2.1]
    exact h.messageCallback j (hmade ▸ hj)
  · have hold : ∀ functor : LoopFunctor β, functor.Runs s → functor.Runs s' := by
      intro functor hruns
      cases functor with
      | createConnection => exact hruns
      | connection j life g =>
        have hruns : g.Runs (s.conn j).writeCompleteCallback := hruns
        change g.Runs (s'.conn j).writeCompleteCallback
        rw [(hkeep j).2.2]
        exact hruns
    have hrunning : s'.running = s.running := hp.running
    rw [hrunning, hp.functors, ← List.append_assoc, List.forall_mem_append]
    refine ⟨fun functor hmem => hold functor (h.functors functor hmem), fun functor hmem => ?_⟩
    obtain ⟨g, hg, rfl⟩ := List.mem_map.1 hmem
    have hruns := hx.queued g hg
    change g.Runs (s'.conn i).writeCompleteCallback
    rw [(hkeep i).2.2]
    exact hruns

/-- The connection callback of a connection that is being set up is called. -/
theorem connectEstablished (h : Ready s) (hi : i < s.made)
    (hstate : (s.conn i).state = .kConnecting) :
    (EventLoop.onConnection i TcpConnection.connectEstablished s).val = .ok () ∧
      Ready (EventLoop.onConnection i TcpConnection.connectEstablished s).state := by
  refine h.onConnection ?_
  have ho := connectEstablished_outcome (s.conn i)
  generalize TcpConnection.connectEstablished (s.conn i) = o at ho ⊢
  cases ho with
  | refused hs => exact absurd hstate hs
  | unset _ hunset =>
    rw [h.connectionCallback i hi] at hunset
    cases hunset
  | opened => exact .of_quiet rfl rfl rfl rfl

variable [Inhabited β]

theorem createConnection (h : Ready s) (hplaced : Placed s) (sockFd : ℤ)
    {connectCallback messageCallback : Option Callback} (writeCompleteCallback : Option Callback)
    (hconnect : connectCallback.isSome = true) (hmessage : messageCallback.isSome = true)
    (hhandles : Handles s) :
    (EventLoop.createConnection sockFd connectCallback messageCallback
        writeCompleteCallback s).val = .ok () ∧
      Ready (EventLoop.createConnection sockFd connectCallback messageCallback
        writeCompleteCallback s).state := by
  rcases hpool : s.connectionsPool.getLast? with _ | _ | i
  · rw [createConnection_new s _ _ _ _ hpool]
    let s₁ := s.extended sockFd connectCallback messageCallback writeCompleteCallback
    have hnew : s₁.conn s.made =
        newConn sockFd connectCallback messageCallback writeCompleteCallback :=
      Function.update_self _ _ _
    have hold : ∀ j, j < s.made → s₁.conn j = s.conn j := fun j hj =>
      Function.update_of_ne (by omega) _ _
    have hready : Ready s₁ := by
      refine ⟨fun j hj => ?_, fun j hj => ?_, fun functor hmem => ?_⟩
      · rcases Nat.lt_succ_iff_lt_or_eq.1 hj with hj | rfl
        · rw [hold j hj]
          exact h.connectionCallback j hj
        · rw [hnew]
          exact hconnect
      · rcases Nat.lt_succ_iff_lt_or_eq.1 hj with hj | rfl
        · rw [hold j hj]
          exact h.messageCallback j hj
        · rw [hnew]
          exact hmessage
      · have hruns := h.functors functor hmem
        cases functor with
        | createConnection => exact hruns
        | connection j life g =>
          have hj := hhandles.functors j life g hmem
          change g.Runs (s₁.conn j).writeCompleteCallback
          rw [hold j hj]
          exact hruns
    exact hready.connectEstablished (Nat.lt_succ_self _) (by rw [hnew]; rfl)
  · exact absurd (List.mem_of_getLast? hpool) hplaced.none_not_mem
  · rw [createConnection_reuse s _ _ _ _ hpool]
    have hi := hhandles.pool i (List.mem_of_getLast? hpool)
    have hreset : (s.reused sockFd i).conn i = (connectReset sockFd (s.conn i)).state :=
      Function.update_self _ _ _
    have hsame : ∀ j, ((s.reused sockFd i).conn j).connectionCallback =
        (s.conn j).connectionCallback ∧
          ((s.reused sockFd i).conn j).messageCallback = (s.conn j).messageCallback ∧
            ((s.reused sockFd i).conn j).writeCompleteCallback =
              (s.conn j).writeCompleteCallback := by
      intro j
      by_cases hj : j = i
      · subst hj
        rw [hreset]
        exact ⟨rfl, rfl, rfl⟩
      · have hother : (s.reused sockFd i).conn j = s.conn j := Function.update_of_ne hj _ _
        rw [hother]
        exact ⟨rfl, rfl, rfl⟩
    have hready : Ready (s.reused sockFd i) := by
      refine ⟨fun j hj => ?_, fun j hj => ?_, fun functor hmem => ?_⟩
      · rw [(hsame j).1]
        exact h.connectionCallback j hj
      · rw [(hsame j).2.1]
        exact h.messageCallback j hj
      · have hruns := h.functors functor hmem
        cases functor with
        | createConnection => exact hruns
        | connection j life g =>
          change g.Runs ((s.reused sockFd i).conn j).writeCompleteCallback
          rw [(hsame j).2.2]
          exact hruns
    exact hready.connectEstablished hi (by rw [hreset]; rfl)

/-- **A functor of the queue** returns. -/
theorem runFunctor (h : Ready s) (hinv : LoopInvariant Standing es s) (hplaced : Placed s)
    (w f : SysRet) :
    (EventLoop.runFunctor w f s).val = .ok () ∧ Ready (EventLoop.runFunctor w f s).state := by
  cases hrunning : s.running with
  | nil =>
    rw [runFunctor_nil w f hrunning]
    exact ⟨rfl, h⟩
  | cons functor rest =>
    rw [runFunctor_cons w f hrunning]
    let s₁ : EventLoop β := { s with running := rest }
    have hruns := h.functors functor (by simp [hrunning])
    have hmem : ∀ g, g ∈ rest ++ s.functors → g ∈ s.running ++ s.functors := fun g hg => by
      rw [hrunning]
      exact List.mem_cons_of_mem _ hg
    have hready : Ready s₁ :=
      ⟨h.connectionCallback, h.messageCallback, fun g hg => h.functors g (hmem g hg)⟩
    have hhandles : Handles s₁ :=
      ⟨hinv.handles.pool, hinv.handles.connections,
        fun j life g hg => hinv.handles.functors j life g (hmem _ hg)⟩
    cases functor with
    | createConnection sockFd connectCallback messageCallback writeCompleteCallback =>
      exact hready.createConnection (s := s₁) hplaced sockFd _ hruns.1 hruns.2 hhandles
    | connection i life g =>
      have hi : i < s.made := hinv.handles.functors i life g (by simp [hrunning])
      exact hready.onConnection (s := s₁) (tame_functor (hinv.lives.current i hi) w f hruns)

end Ready

/-! ## The cycle -/

/-- What the code relies on in one step of the cycle. -/
def Proper (call : CycleCall β) : Prop :=
  let s := call.before
  match call.input with
  | .newConnection _ connectCallback messageCallback _ =>
    connectCallback.isSome = true ∧ messageCallback.isSome = true
  | .request i r => r.Proper (s.eventLoop.conn i)
  | .callback => ∀ h ∈ s.handling, ∀ next ∈ h.2.head?, next.Proper (s.eventLoop.conn h.1)
  | _ => True

instance : DecidablePred (Proper (β := β))
  | ⟨.newConnection .., _, _⟩ => inferInstanceAs (Decidable (_ ∧ _))
  | ⟨.request i r, s, _⟩ => inferInstanceAs (Decidable (r.Proper (s.eventLoop.conn i)))
  | ⟨.callback, _, _⟩ => inferInstanceAs (Decidable (∀ _ ∈ _, ∀ _ ∈ _, _))
  | ⟨.poll _, _, _⟩ | ⟨.handleEvent .., _, _⟩ | ⟨.swapFunctors, _, _⟩ | ⟨.runFunctor .., _, _⟩ =>
    isTrue trivial

/-- A step that is proper, and careful with sockets and closed connections. -/
def WellUsed [Inhabited β] (call : CycleCall β) : Prop :=
  Proper call ∧ ∀ lcall ∈ loopCall call, AcceptsFree lcall ∧ SparesClosed lcall

instance [Inhabited β] : DecidablePred (WellUsed (β := β)) := fun _ =>
  inferInstanceAs (Decidable (_ ∧ ∀ _ ∈ _, _))

theorem careful_of_wellUsed [Inhabited β] {calls : List (CycleCall β)}
    (h : ∀ call ∈ calls, WellUsed call) : Careful (calls.filterMap loopCall) := by
  constructor <;> intro lcall hmem
  · obtain ⟨call, hcall, hlcall⟩ := List.mem_filterMap.1 hmem
    exact ((h call hcall).2 lcall hlcall).1
  · obtain ⟨call, hcall, hlcall⟩ := List.mem_filterMap.1 hmem
    exact ((h call hcall).2 lcall hlcall).2

/-- `handleEvent` calls the close callback first, and then the connection is live. -/
structure LoopCycle.CloseFirst (s : LoopCycle β) : Prop where
  live : ∀ i rest, s.handling = some (i, .closeCallback :: rest) → (s.eventLoop.conn i).Live
  first : ∀ i next rest, s.handling = some (i, next :: rest) → .closeCallback ∉ rest

/-- The close callback is at the head of the callbacks for a mask. -/
theorem dispatch_closeCallback {revents : BitVec 32} {r : ReadRet β} {w : SysRet}
    {next : ChannelCallback β} {rest : List (ChannelCallback β)}
    (h : dispatch revents r w = next :: rest) : .closeCallback ∉ rest := by
  unfold dispatch at h
  intro hmem
  split at h <;> split at h <;> split at h <;> split at h <;>
    simp only [List.nil_append, List.cons_append, List.append_nil] at h <;>
    cases h <;> simp at hmem

namespace LoopCycle

variable [Inhabited β] {s : LoopCycle β} {calls : List (CycleCall β)}

theorem closeFirst_start : CloseFirst (start : LoopCycle β) :=
  ⟨fun _ _ h => (by cases h), fun _ _ _ h => (by cases h)⟩

/-- A request leaves a live connection live. -/
theorem live_request {i j : ℕ} (hinv : LoopInvariant Standing (traceOf calls) s.eventLoop)
    (hi : i < s.eventLoop.made) (r : Request β)
    (hok : (EventLoop.onConnection i r.call s.eventLoop).val = .ok ())
    (hlive : (s.eventLoop.conn j).Live) :
    ((EventLoop.onConnection i r.call s.eventLoop).state.conn j).Live := by
  obtain ⟨-, hself, hothers⟩ := EventLoop.onConnection_frame i r.call s.eventLoop
  by_cases hji : j = i
  · subst hji
    rw [hself]
    have hsettled := (Standing.request r _ _ _ (hinv.lives.current j hi) hok).settled
    have hopen : (r.call (s.eventLoop.conn j)).state.state ≠ .kDisconnected := by
      refine live_frame.keeps_request keeps_live_shutdown keeps_live_forceClose r [] _ ?_
      rcases hlive with hs | hs <;> simp [hs]
    unfold Live
    cases hstate : (r.call (s.eventLoop.conn j)).state.state <;> simp_all
  · rw [hothers j hji]
    exact hlive

theorem CloseFirst.step (h : CloseFirst s) (hcycled : Cycled s) (htimely : Timely s)
    (hinv : LoopInvariant Standing (traceOf calls) s.eventLoop) (op : CycleOp β)
    (hop : InCycle calls (Call.make CycleOp.exec op s)) (hok : (op.exec s).val = .ok ()) :
    CloseFirst (op.exec s).state := by
  have hp := proceeds op hop
  generalize (op.exec s).state = s' at hp ⊢
  cases hp with
  | poll => exact ⟨h.live, h.first⟩
  | @entered r w ch rest i hactive hch =>
    refine ⟨fun j rest' hhandling => ?_, fun j next rest' hhandling => ?_⟩
    · obtain ⟨rfl, -⟩ := Prod.mk.inj (Option.some.inj hhandling)
      exact (htimely.current ch (hactive ▸ List.mem_cons_self) i hch).1
    · obtain ⟨-, hdispatch⟩ := Prod.mk.inj (Option.some.inj hhandling)
      exact dispatch_closeCallback hdispatch
  | passed => exact ⟨nofun, nofun⟩
  | @callback i next rest hh =>
    have hrest := h.first i next rest hh
    refine ⟨fun j rest' hhandling => ?_, fun j next' rest' hhandling => ?_⟩
    · obtain ⟨-, rfl⟩ := Prod.mk.inj (Option.some.inj hhandling)
      exact absurd List.mem_cons_self hrest
    · obtain ⟨-, rfl⟩ := Prod.mk.inj (Option.some.inj hhandling)
      exact fun hmem => hrest (List.mem_cons_of_mem _ hmem)
  | returned => exact ⟨nofun, nofun⟩
  | loop op lop hne hlop =>
    refine ⟨fun j rest hhandling => ?_, h.first⟩
    have hlive := h.live j rest hhandling
    cases op with
    | poll | handleEvent => cases hlop
    | callback => exact absurd rfl hne
    | newConnection =>
      obtain rfl := Option.some.inj hlop
      exact hlive
    | request i r =>
      obtain rfl := Option.some.inj hlop
      exact live_request hinv hop r hok hlive
    | swapFunctors =>
      obtain rfl := Option.some.inj hlop
      exact hlive
    | runFunctor w f =>
      have hhandling : s.handling = some (j, .closeCallback :: rest) := hhandling
      have hidle := (hcycled.phase hop).2
      rw [hhandling] at hidle
      cases hidle

/-- **A proper step returns**, and leaves the loop ready. -/
theorem ready_step (hready : Ready s.eventLoop) (hclose : CloseFirst s) (hcycled : Cycled s)
    (hinv : LoopInvariant Standing (traceOf calls) s.eventLoop) (hplaced : Placed s.eventLoop)
    (op : CycleOp β) (hop : InCycle calls (Call.make CycleOp.exec op s))
    (hproper : Proper (Call.make CycleOp.exec op s)) :
    (op.exec s).val = .ok () ∧ Ready (op.exec s).state.eventLoop := by
  have hfollows := follows (s := s) op
  cases op with
  | poll events => exact ⟨hfollows.val, hfollows.eventLoop ▸ hready⟩
  | handleEvent r w => exact ⟨hfollows.val, hfollows.eventLoop ▸ hready⟩
  | callback =>
    rcases hh : s.handling with _ | ⟨i, _ | ⟨next, rest⟩⟩ <;>
      simp only [CycleOp.loopOp, hh] at hfollows
    · exact ⟨hfollows.val, hfollows.eventLoop ▸ hready⟩
    · exact ⟨hfollows.val, hfollows.eventLoop ▸ hready⟩
    · have hi := hcycled.handling i _ hh
      have hnext : next.Proper (s.eventLoop.conn i) := hproper _ hh next rfl
      have htame := tame_callback (hinv.lives.current i hi) (hready.messageCallback i hi) hnext
        fun heq => hclose.live i rest (heq ▸ hh)
      obtain ⟨hval, hstate⟩ := hready.onConnection htame
      exact ⟨hfollows.val.trans hval, hfollows.eventLoop ▸ hstate⟩
  | newConnection sockFd connectCallback messageCallback writeCompleteCallback =>
    refine ⟨rfl, hready.connectionCallback, hready.messageCallback, fun functor hmem => ?_⟩
    have hmem : functor ∈ s.eventLoop.running ++ (s.eventLoop.functors ++
        [.createConnection sockFd connectCallback messageCallback writeCompleteCallback]) := hmem
    rw [← List.append_assoc, List.mem_append, List.mem_singleton] at hmem
    rcases hmem with hmem | rfl
    · have hruns := hready.functors functor hmem
      cases functor <;> exact hruns
    · exact hproper
  | request i r =>
    have htame := tame_request (hinv.lives.current i hop).output hproper
    obtain ⟨hval, hstate⟩ := hready.onConnection htame
    exact ⟨hfollows.val.trans hval, hfollows.eventLoop ▸ hstate⟩
  | swapFunctors =>
    refine ⟨rfl, hready.connectionCallback, hready.messageCallback, fun functor hmem => ?_⟩
    have hmem : functor ∈ s.eventLoop.functors ++ [] := hmem
    rw [List.append_nil] at hmem
    have hruns := hready.functors functor (List.mem_append_right _ hmem)
    cases functor <;> exact hruns
  | runFunctor w f =>
    obtain ⟨hval, hstate⟩ := hready.runFunctor hinv hplaced w f
    exact ⟨hfollows.val.trans hval, hfollows.eventLoop ▸ hstate⟩

theorem ready_of_run (h : Run CycleOp.exec InCycle start calls s)
    (hused : ∀ call ∈ calls, WellUsed call) : Ready s.eventLoop ∧ CloseFirst s := by
  suffices hall : Run CycleOp.exec InCycle LoopCycle.start calls s ∧
      ((∀ call ∈ calls, WellUsed call) → Ready s.eventLoop ∧ CloseFirst s) from hall.2 hused
  refine h.invariant (I := fun calls s => Run CycleOp.exec InCycle LoopCycle.start calls s ∧
    ((∀ call ∈ calls, WellUsed call) → Ready s.eventLoop ∧ CloseFirst s))
    ⟨.nil, fun _ => ⟨.start, closeFirst_start⟩⟩ ?_
  rintro calls s op ⟨hrun, hrest⟩ hop hok
  refine ⟨hrun.snoc op hop hok, fun hused => ?_⟩
  have hbefore : ∀ call ∈ calls, WellUsed call :=
    fun call hcall => hused call (List.mem_append_left _ hcall)
  obtain ⟨hready, hclose⟩ := hrest hbefore
  have hcareful := careful_of_wellUsed hbefore
  obtain ⟨hloop, htrace, hcycled⟩ := refines hrun
  have hinv := stagedInvariant_of_run standing_staged hloop
  have hplaced := placed_of_run hloop hcareful.accepts
  rw [htrace] at hinv
  have hproper := (hused (Call.make CycleOp.exec op s) (by simp)).1
  exact ⟨(ready_step hready hclose hcycled hinv hplaced op hop hproper).2,
    hclose.step hcycled (timely_of_run hrun hcareful) hinv op hop hok⟩

end LoopCycle

section Runs

variable [Inhabited β] {calls : List (CycleCall β)} {s : LoopCycle β}

/-- **The loop never aborts**: after every run of its cycle whose steps are well used, every next
step that is proper returns, whatever the poller reports and the kernel answers. -/
theorem loop_never_aborts (h : Run CycleOp.exec InCycle LoopCycle.start calls s)
    (hused : ∀ call ∈ calls, WellUsed call) (op : CycleOp β)
    (hop : InCycle calls (Call.make CycleOp.exec op s))
    (hproper : Proper (Call.make CycleOp.exec op s)) : (op.exec s).val = .ok () := by
  obtain ⟨hready, hclose⟩ := ready_of_run h hused
  obtain ⟨hloop, htrace, hcycled⟩ := refines h
  have hinv := stagedInvariant_of_run standing_staged hloop
  have hplaced := placed_of_run hloop (careful_of_wellUsed hused).accepts
  rw [htrace] at hinv
  exact (ready_step hready hclose hcycled hinv hplaced op hop hproper).1

end Runs

/-- A connection is sent to, drained, half-closed by its user, and closed by its peer in the event
that also lets it write; then it is used for the next socket. -/
theorem loop_never_aborts_of_reuse :
    ∃ calls s, Run (CycleOp.exec (β := ℕ)) InCycle LoopCycle.start calls s ∧
      s.eventLoop.life 0 = 1 ∧ ((CycleOp.callback (β := ℕ)).exec s).val = .ok () := by
  have hrun : Run (CycleOp.exec (β := ℕ)) InCycle LoopCycle.start _ _ :=
    run_replay [.newConnection 5 (some 0) (some 1) (some 2), .swapFunctors,
      .runFunctor (.ok 0) (.ok 0), .request 0 (.send true [1, 2, 3] (.ok 1) (.ok 0)),
      .poll [⟨5, .connection 0, 5⟩], .handleEvent (.ok [7]) (.ok 2), .callback, .callback,
      .callback, .swapFunctors, .runFunctor (.ok 0) (.ok 0), .request 0 (.shutdown true),
      .poll [⟨5, .connection 0, 5⟩], .handleEvent (.ok []) (.ok 0), .callback, .callback,
      .callback, .newConnection 5 (some 0) (some 1) (some 2), .swapFunctors,
      .runFunctor (.ok 0) (.ok 0), .poll [⟨5, .connection 0, 1⟩],
      .handleEvent (.ok [8]) (.ok 0)] (by decide +kernel)
  exact ⟨_, _, hrun, by decide +kernel, loop_never_aborts hrun (by decide +kernel) .callback
    (by decide +kernel) (by decide +kernel)⟩

end Cannet.Net
