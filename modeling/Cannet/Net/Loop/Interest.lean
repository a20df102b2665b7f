import Cannet.Net.Loop.Closed
import Cannet.Net.Loop.Deregistration
import Cannet.Net.Loop.Places

/-!
# The interest set of a loop

`Epoll::update` registers a descriptor together with the address of its channel, and the poller
hands that address back with an event. Which connection a descriptor is registered with is read off
what the loop has done (`polled`). If its users leave closed connections alone, a loop has no
registration but those of live connections, each under the descriptor it serves
(`registrations_of_run`): what closes a connection takes its registration out, and the next socket
of the connection is registered anew.
-/

namespace Cannet.Net

open Foundations EventLoop TcpConnection

variable {β : Type}

/-- The connection whose channel a descriptor is registered with. -/
abbrev PollSet := ℤ → Option ℕ

/-- What the kernel makes of a call on the poller, or of a close. A call that it refuses changes
nothing. -/
def pollEffect (set : PollSet) (e : LifeEffect (Effect β)) : PollSet :=
  match e.effect with
  | .epollCtl .add fd _ => if set fd = none then Function.update set fd (some e.obj) else set
  | .epollCtl .mod fd _ => if set fd = none then set else Function.update set fd (some e.obj)
  | .epollCtl .del fd _ | .close fd => Function.update set fd none
  | _ => set

/-- The interest set after what the loop has done. -/
def polled (es : List (LifeEffect (Effect β))) : PollSet :=
  es.foldl pollEffect fun _ => none

@[simp] theorem polled_nil : polled ([] : List (LifeEffect (Effect β))) = fun _ => none := rfl

theorem polled_append (es es' : List (LifeEffect (Effect β))) :
    polled (es ++ es') = es'.foldl pollEffect (polled es) := List.foldl_append

/-! ## What one connection does to it -/

/-- The interest set after the effects of connection `i`. -/
def pollAll (i life : ℕ) (es : List (Effect β)) (set : PollSet) : PollSet :=
  (es.map (LifeEffect.mk i life)).foldl pollEffect set

section PollAll

variable {i life j : ℕ} {fd : ℤ} {es es' : List (Effect β)} {set : PollSet}

@[simp] theorem pollAll_nil : pollAll i life ([] : List (Effect β)) set = set := rfl

theorem pollAll_cons (e : Effect β) :
    pollAll i life (e :: es) set = pollAll i life es (pollEffect set ⟨i, life, e⟩) := rfl

theorem pollAll_append :
    pollAll i life (es ++ es') set = pollAll i life es' (pollAll i life es set) := by
  rw [pollAll, List.map_append, List.foldl_append]
  rfl

/-- Only calls on a descriptor change its registration. -/
theorem poll_other {e : Effect β} (h : ∀ x ∈ e.ctl, x.1 ≠ fd) :
    pollEffect set ⟨i, life, e⟩ fd = set fd := by
  cases e with
  | epollCtl op fd' events =>
    have hne : fd ≠ fd' := (h (fd', op.ctl events) (List.mem_singleton_self _)).symm
    cases op <;> simp only [pollEffect] <;> (try split) <;>
      first | rfl | exact Function.update_of_ne hne _ _
  | close fd' => exact Function.update_of_ne (h (fd', .close) (List.mem_singleton_self _)).symm _ _
  | _ => rfl

theorem pollAll_other (h : ∀ x ∈ ctls es, x.1 ≠ fd) : pollAll i life es set fd = set fd := by
  induction es generalizing set with
  | nil => rfl
  | cons e es ih =>
    rw [ctls_cons, List.forall_mem_append] at h
    rw [pollAll_cons, ih h.2, poll_other h.1]

/-- A registration is one made by the connection, or an old one. -/
theorem poll_own {e : Effect β} (h : pollEffect set ⟨i, life, e⟩ fd = some j) :
    j = i ∨ set fd = some j := by
  cases e with
  | epollCtl op fd' events =>
    by_cases hfd : fd = fd'
    · subst hfd
      cases op <;> simp only [pollEffect] at h
      · split at h
        · rw [Function.update_self] at h
          exact .inl (Option.some.inj h).symm
        · exact .inr h
      · split at h
        · exact .inr h
        · rw [Function.update_self] at h
          exact .inl (Option.some.inj h).symm
      · rw [Function.update_self] at h
        cases h
    · rw [poll_other fun x hx => by
        obtain rfl := List.mem_singleton.1 hx
        exact Ne.symm hfd] at h
      exact .inr h
  | close fd' =>
    simp only [pollEffect] at h
    by_cases hfd : fd = fd'
    · subst hfd
      rw [Function.update_self] at h
      cases h
    · rw [Function.update_of_ne hfd] at h
      exact .inr h
  | _ => exact .inr h

theorem pollAll_own (h : pollAll i life es set fd = some j) : j = i ∨ set fd = some j := by
  induction es generalizing set with
  | nil => exact .inr h
  | cons e es ih =>
    rcases ih h with hj | hj
    · exact .inl hj
    · exact poll_own hj

theorem pollAll_quiet (h : ctls es = []) : pollAll i life es set = set := by
  funext fd
  refine pollAll_other fun x hx => ?_
  rw [h] at hx
  cases hx

/-- **What closes a connection** takes its registration out. -/
theorem pollAll_closeCalls (c : TcpConnection β) :
    pollAll i life c.closeCalls set c.channel.fd = none := by
  unfold closeCalls Channel.removeCalls
  by_cases hstatus : c.channel.status = .kAdded
  · have hout : c.channel.disabled.status ≠ .kAdded := by
      simp [Channel.disabled, Channel.updated, Channel.nextStatus, Channel.isNoneEvent, hstatus]
    rw [if_neg hout]
    exact Function.update_self _ _ _
  · have hin : c.channel.disabled.status = .kAdded := by
      simp [Channel.disabled, Channel.updated, Channel.nextStatus, hstatus]
    rw [if_pos hin]
    exact Function.update_self _ _ _

end PollAll

/-! ## Which calls close -/

namespace TcpConnection

/-- The effects end with those of a close, on the channel of the connection. -/
def Closes (c : TcpConnection β) (es : List (Effect β)) : Prop :=
  ∃ c' : TcpConnection β, ∃ pre : List (Effect β),
    es = pre ++ c'.closeCalls ∧ ctls pre = [] ∧ c'.channel = c.channel

variable {c : TcpConnection β}

theorem Closes.unregisters {es : List (Effect β)} (h : c.Closes es) :
    (∀ x ∈ ctls es, x.1 = c.channel.fd) ∧
      ∀ i life set, pollAll i life es set c.channel.fd = none := by
  obtain ⟨c', pre, rfl, hpre, hchannel⟩ := h
  constructor
  · rw [ctls_append, hpre, List.nil_append, ctls_closeCalls, hchannel]
    split <;> simp
  · intro i life set
    rw [pollAll_append, ← hchannel]
    exact pollAll_closeCalls c'

theorem closes_handleClose (hok : (handleClose c).val = .ok ()) :
    c.Closes (handleClose c).trace := by
  have ho := handleClose_outcome c
  generalize handleClose c = o at ho hok ⊢
  cases ho with
  | refused => cases hok
  | unset => cases hok
  | closed => exact ⟨c, [], rfl, rfl, rfl⟩

/-- A call that leaves a live connection live, or closes it. -/
def StaysOrCloses (c : TcpConnection β) (o : Outcome Abort (Effect β) (TcpConnection β) Unit) :
    Prop :=
  o.state.state ≠ .kDisconnected ∨ c.Closes o.trace

variable [Inhabited β] {es : List (Effect β)}

theorem staysOrCloses_callback (h : Standing es c) (hs : c.state ≠ .kDisconnected)
    (callback : ChannelCallback β) (hok : (callback.call c).val = .ok ()) :
    c.StaysOrCloses (callback.call c) := by
  cases callback with
  | closeCallback => exact .inr (closes_handleClose hok)
  | errorCallback => exact .inl (live_frame.keeps_handleError [] c hs)
  | writeCallback w => exact .inl (live_frame.output.keeps_handleWrite w [] c hs)
  | readCallback r =>
    rw [ChannelCallback.call] at hok ⊢
    have ho := handleRead_outcome h.input r
    generalize handleRead r c = o at ho hok ⊢
    cases ho with
    | failed e => exact .inl hs
    | ended b _ =>
      obtain ⟨c', pre, htrace, hpre, hchannel⟩ := closes_handleClose hok
      refine .inr ⟨c', c.readvCall :: pre, ?_, hpre, hchannel⟩
      rw [Outcome.trace_after, htrace]
      rfl
    | received data _ _ b _ => exact .inl hs
    | unset => cases hok

theorem staysOrCloses_functor (hs : c.state ≠ .kDisconnected) (w f : SysRet) (g : Functor β)
    (hok : (g.call w f c).val = .ok ()) : c.StaysOrCloses (g.call w f c) := by
  by_cases hclosing : g = .forceCloseInLoop
  · subst hclosing
    rw [Functor.call, forceCloseInLoop, Act.get_bind, Act.ite_apply] at hok ⊢
    split
    · rename_i hlive
      rw [if_pos hlive] at hok
      exact .inr (closes_handleClose hok)
    · exact .inl hs
  · exact .inl (live_frame.keeps_functor w f g hclosing [] c hs)

/-! ### Calls on a closed connection -/

omit [Inhabited β] in
theorem ctls_of_not_isSystemCall {es : List (Effect β)}
    (h : ∀ e ∈ es, e.isSystemCall = false) : ctls es = [] := by
  refine List.flatMap_eq_nil_iff.2 fun e he => ?_
  have hsys := h e he
  cases e <;> first | rfl | cases hsys

theorem ctls_callback_closed (h : Standing es c) (hout : c.ClosedOut)
    (hs : c.state = .kDisconnected) (callback : ChannelCallback β)
    (hok : (callback.call c).val = .ok ()) : ctls (callback.call c).trace = [] := by
  cases callback with
  | closeCallback =>
    rw [ChannelCallback.call, handleClose, Act.get_bind, Act.check_neg _ (by simp [hs])] at hok
    cases hok
  | errorCallback => rfl
  | writeCallback w =>
    rw [ChannelCallback.call, handleWrite_notWriting w (isWriting_of_out (hout hs))]
    rfl
  | readCallback r =>
    rw [ChannelCallback.call] at hok ⊢
    have ho := handleRead_outcome h.input r
    generalize handleRead r c = o at ho hok ⊢
    cases ho with
    | failed e => rfl
    | ended b _ =>
      rw [Outcome.val_after, handleClose, Act.get_bind, Act.check_neg _ (by simp [hs])] at hok
      cases hok
    | received data _ _ b _ => rfl
    | unset => cases hok

theorem ctls_functor_closed (hout : c.ClosedOut) (hs : c.state = .kDisconnected) (w f : SysRet)
    {g : Functor β} (hsafe : g.isSafe c = true) : ctls (g.call w f c).trace = [] := by
  by_cases huser : g.isUserCall = true
  · exact ctls_of_not_isSystemCall (functor_untouched hs (hout hs) w f huser hsafe).calls
  · cases g with
    | writeCompleteCallback =>
      rw [Functor.call, Act.get_bind, Act.ite_apply]
      split <;> rfl
    | shutdownInLoop =>
      rw [Functor.call, shutdownInLoop_apply]
      exact ctls_halfClose c
    | forceCloseInLoop =>
      rw [Functor.call, forceCloseInLoop, Act.get_bind, Act.ite_apply, if_neg (by simp [hs])]
      rfl
    | _ => exact absurd rfl huser

end TcpConnection

/-! ## The registrations of a loop -/

/-- Every registration is of a live connection, under the descriptor it serves. -/
def Registrations (es : List (LifeEffect (Effect β))) (s : EventLoop β) : Prop :=
  ∀ fd i, polled es fd = some i → i < s.made ∧ (s.conn i).Live ∧ (s.conn i).sockFd = fd

namespace Registrations

variable {es : List (LifeEffect (Effect β))} {s s' : EventLoop β} {i : ℕ}

theorem congr (h : Registrations es s) (hconn : s'.conn = s.conn) (hmade : s'.made = s.made) :
    Registrations es s' := by
  unfold Registrations
  rw [hconn, hmade]
  exact h

/-- A call leaves a live connection behind, or one that is not registered. -/
def Settles (c : TcpConnection β) (o : Outcome Abort (Effect β) (TcpConnection β) Unit) : Prop :=
  o.state.Live ∨ (¬c.Live ∧ ctls o.trace = []) ∨
    ∀ i life set, pollAll i life o.trace set c.sockFd = none

/-- **A call on a connection** that keeps to its descriptor. -/
theorem onConnection (h : Registrations es s) (hi : i < s.made) {x : Conn β Unit}
    (hsock : (x (s.conn i)).state.sockFd = (s.conn i).sockFd)
    (hown : ∀ y ∈ ctls (x (s.conn i)).trace, y.1 = (s.conn i).sockFd)
    (hend : Settles (s.conn i) (x (s.conn i))) :
    Registrations (es ++ (EventLoop.onConnection i x s).trace)
      (EventLoop.onConnection i x s).state := by
  obtain ⟨s', hs', hp⟩ := onConnection_spec i x s
  rw [hs', Registrations, polled_append]
  intro fd j hj
  have hj : pollAll i (s.life i) (x (s.conn i)).trace (polled es) fd = some j := hj
  have hmade : s'.made = s.made := hp.made
  have hconn : s'.conn = Function.update s.conn i (x (s.conn i)).state := hp.conn
  rw [hconn, hmade]
  by_cases hji : j = i
  · subst hji
    rw [Function.update_self]
    by_cases hfd : fd = (s.conn j).sockFd
    · subst hfd
      rcases hend with hlive | ⟨hdead, hquiet⟩ | hout
      · exact ⟨hi, hlive, hsock⟩
      · rw [pollAll_quiet hquiet] at hj
        exact absurd (h _ _ hj).2.1 hdead
      · rw [hout] at hj
        cases hj
    · rw [pollAll_other fun y hy heq => hfd (heq.symm.trans (hown y hy))] at hj
      exact absurd (h fd j hj).2.2.symm hfd
  · rw [Function.update_of_ne hji]
    exact h fd j ((pollAll_own hj).resolve_left hji)

/-- A new registration, of a connection that is being set up. -/
theorem connectEstablished (h : Registrations es s) (hi : i < s.made)
    (hstate : (s.conn i).state = .kConnecting) (hfd : (s.conn i).channel.fd = (s.conn i).sockFd) :
    Registrations (es ++ (EventLoop.onConnection i TcpConnection.connectEstablished s).trace)
      (EventLoop.onConnection i TcpConnection.connectEstablished s).state := by
  have ho := connectEstablished_outcome (s.conn i)
  generalize hx : TcpConnection.connectEstablished (s.conn i) = o at ho
  have hown : ctls o.trace = [] ∨ ctls o.trace = ctls [(s.conn i).readCall] := by
    cases ho with
    | refused hs => exact absurd hstate hs
    | unset => exact .inr rfl
    | opened => exact .inr rfl
  refine h.onConnection hi ?_ ?_ ?_ <;> rw [hx]
  · cases ho <;> rfl
  · intro y hy
    rcases hown with hown | hown
    · rw [hown] at hy
      cases hy
    · rw [hown] at hy
      obtain rfl := List.mem_singleton.1 hy
      exact hfd
  · cases ho with
    | refused hs => exact absurd hstate hs
    | unset => exact .inl (.inl rfl)
    | opened => exact .inl (.inl rfl)

variable [Inhabited β]

theorem createConnection (h : Registrations es s) (hplaced : Placed s) (sockFd : ℤ)
    (connectCallback messageCallback writeCompleteCallback : Option Callback) :
    Registrations
      (es ++ (EventLoop.createConnection sockFd connectCallback messageCallback
        writeCompleteCallback s).trace)
      (EventLoop.createConnection sockFd connectCallback messageCallback
        writeCompleteCallback s).state := by
  rcases hpool : s.connectionsPool.getLast? with _ | _ | i
  · rw [createConnection_new s _ _ _ _ hpool]
    have hnew : (s.extended sockFd connectCallback messageCallback writeCompleteCallback).conn
        s.made = newConn sockFd connectCallback messageCallback writeCompleteCallback :=
      Function.update_self _ _ _
    have hext : Registrations (es ++ [⟨s.made, s.life s.made, .setKeepAlive sockFd⟩])
        (s.extended sockFd connectCallback messageCallback writeCompleteCallback) := by
      intro fd j hj
      rw [polled_append] at hj
      obtain ⟨hlt, hlive⟩ := h fd j hj
      have hconn : (s.extended sockFd connectCallback messageCallback
          writeCompleteCallback).conn j = s.conn j := Function.update_of_ne (by omega) _ _
      rw [hconn]
      exact ⟨Nat.lt_succ_of_lt hlt, hlive⟩
    rw [Outcome.trace_after, ← List.append_assoc]
    exact hext.connectEstablished (Nat.lt_succ_self _) (by rw [hnew]; rfl) (by rw [hnew]; rfl)
  · exact absurd (List.mem_of_getLast? hpool) hplaced.none_not_mem
  · rw [createConnection_reuse s _ _ _ _ hpool]
    obtain ⟨i', hi', hi, hdead⟩ := hplaced.last_spare hpool
    obtain rfl := Option.some.inj hi'
    have hreset : (s.reused sockFd i).conn i = (connectReset sockFd (s.conn i)).state :=
      Function.update_self _ _ _
    have hre : Registrations (es ++ [⟨i, s.life i + 1, .setKeepAlive sockFd⟩])
        (s.reused sockFd i) := by
      intro fd j hj
      rw [polled_append] at hj
      obtain ⟨hlt, hlive, hfd⟩ := h fd j hj
      have hji : j ≠ i := fun heq => by
        subst heq
        exact hdead hlive
      have hconn : (s.reused sockFd i).conn j = s.conn j := Function.update_of_ne hji _ _
      rw [hconn]
      exact ⟨hlt, hlive, hfd⟩
    rw [Outcome.trace_after, ← List.append_assoc]
    exact hre.connectEstablished hi (by rw [hreset]; rfl) (by rw [hreset]; rfl)

omit [Inhabited β] in
/-- What a callback, a request or a functor does to the registrations. -/
theorem onStanding (h : Registrations es s) (hinv : LoopInvariant Standing es s) (hi : i < s.made)
    {x : Conn β Unit}
    (hstands : Standing (lifeTrace es i (s.life i) ++ (x (s.conn i)).trace) (x (s.conn i)).state)
    (hmoves : Moves (s.conn i) (x (s.conn i)).trace (x (s.conn i)).state)
    (hdead : (s.conn i).state = .kDisconnected → ctls (x (s.conn i)).trace = [])
    (hstays : (s.conn i).state ≠ .kDisconnected → (s.conn i).StaysOrCloses (x (s.conn i))) :
    Registrations (es ++ (EventLoop.onConnection i x s).trace)
      (EventLoop.onConnection i x s).state := by
  have hfd := (hinv.lives.current i hi).fd
  have hlive : ∀ c : TcpConnection β, c.state ≠ .kConnecting → c.state ≠ .kDisconnected →
      c.Live := fun c hnew hopen => by
    unfold Live
    cases hc : c.state <;> simp_all
  by_cases hs : (s.conn i).state = .kDisconnected
  · have hnone := hdead hs
    refine h.onConnection hi hmoves.sockFd ?_ (.inr (.inl ⟨by simp [Live, hs], hnone⟩))
    rw [hnone]
    exact fun y hy => absurd hy List.not_mem_nil
  · rcases hstays hs with hopen | hcloses
    · have hlive' := hlive _ hstands.settled hopen
      refine h.onConnection hi hmoves.sockFd (fun y hy => ?_) (.inl hlive')
      rw [← hmoves.sockFd, ← hstands.fd]
      refine (hstands.tuned hlive').own y ?_
      rw [ctls_append]
      exact List.mem_append_right _ hy
    · obtain ⟨hown, hnone⟩ := hcloses.unregisters
      rw [hfd] at hown hnone
      exact h.onConnection hi hmoves.sockFd hown (.inr (.inr hnone))

/-- One step keeps the registrations, if it leaves closed connections alone. -/
theorem step (h : Registrations es s) (hinv : LoopInvariant Standing es s) (hplaced : Placed s)
    (hout : AllOut s) (op : LoopOp β) {calls : List (LoopCall β)}
    (hop : Scheduled calls (Call.make LoopOp.exec op s))
    (hspares : SparesClosed (Call.make LoopOp.exec op s)) (hok : (op.exec s).val = .ok ()) :
    Registrations (es ++ (op.exec s).trace) (op.exec s).state := by
  cases op with
  | newConnection | swapFunctors =>
    rw [LoopOp.exec] at hok ⊢
    exact (List.append_nil es).symm ▸ h.congr rfl rfl
  | handleEvent i callback =>
    have hc := hinv.lives.current i hop.2
    exact h.onStanding hinv hop.2 (Standing.handleEvent callback _ _ _ hc hok)
      (.callback hc callback hok) (fun hs => ctls_callback_closed hc (hout i) hs callback hok)
      (fun hs => staysOrCloses_callback hc hs callback hok)
  | request i r =>
    have hc := hinv.lives.current i hop
    refine h.onStanding hinv hop (Standing.request r _ _ _ hc hok) (.request r _) ?_ ?_
    · exact fun hs => ctls_of_not_isSystemCall
        (request_untouched hs (hout i hs) (hspares hs)).calls
    · exact fun hs => .inl
        (live_frame.keeps_request keeps_live_shutdown keeps_live_forceClose r [] _ hs)
  | runFunctor w f =>
    rw [LoopOp.exec] at hok ⊢
    cases hrunning : s.running with
    | nil =>
      rw [runFunctor_nil w f hrunning, List.append_nil]
      exact h
    | cons functor rest =>
      rw [runFunctor_cons w f hrunning] at hok ⊢
      let s₁ : EventLoop β := { s with running := rest }
      have hrest : Registrations es s₁ := h.congr rfl rfl
      cases functor with
      | createConnection sockFd connectCallback messageCallback writeCompleteCallback =>
        exact hrest.createConnection (s := s₁) hplaced sockFd _ _ _
      | connection i life g =>
        have hi : i < s.made := hinv.handles.functors i life g (by simp [hrunning])
        have hc := hinv.lives.current i hi
        have hsafe : (s.conn i).state = .kDisconnected → g.isSafe (s.conn i) = true :=
          hspares (.connection i life g) (by
            rw [Call.make_before, hrunning]
            rfl)
        have hinv₁ : LoopInvariant Standing es s₁ :=
          ⟨hinv.lives, hinv.handles.pool, hinv.handles.connections, fun j life g hg =>
            hinv.handles.functors j life g (by
              rw [hrunning]
              exact List.mem_cons_of_mem _ hg)⟩
        exact hrest.onStanding hinv₁ hi (Standing.functor w f g _ _ _ hc hok)
          (.functor hc w f g hok) (fun hs => ctls_functor_closed (hout i) hs w f (hsafe hs))
          (fun hs => staysOrCloses_functor hs w f g hok)

end Registrations

/-- The steps give no socket of a live connection to another one, and leave closed connections
alone. -/
structure Careful (calls : List (LoopCall β)) : Prop where
  accepts : ∀ call ∈ calls, AcceptsFree call
  spares : ∀ call ∈ calls, SparesClosed call

/-- **The registrations of a loop** are of its live connections, after every careful run. -/
theorem registrations_of_run [Inhabited β] {calls : List (LoopCall β)} {s : EventLoop β}
    (h : Run LoopOp.exec Scheduled EventLoop.start calls s) (hcareful : Careful calls) :
    Registrations (traceOf calls) s := by
  have hall : LoopInvariant Standing (traceOf calls) s ∧ (Careful calls →
      Placed s ∧ AllOut s ∧ Registrations (traceOf calls) s) := by
    refine h.invariant (I := fun calls s => LoopInvariant Standing (traceOf calls) s ∧
      (Careful calls → Placed s ∧ AllOut s ∧ Registrations (traceOf calls) s)) ?_ ?_
    · refine ⟨.start Standing, fun _ => ⟨Placed.start, fun i hi => ?_, fun fd i hi => ?_⟩⟩
      · cases hi
      · cases hi
    · rintro calls s op ⟨hinv, hrest⟩ hop hok
      rw [traceOf_append, traceOf_singleton]
      refine ⟨hinv.step standing_staged op hop hok, fun hcareful => ?_⟩
      obtain ⟨hplaced, hout, hreg⟩ := hrest
        ⟨fun call hcall => hcareful.accepts call (List.mem_append_left _ hcall),
          fun call hcall => hcareful.spares call (List.mem_append_left _ hcall)⟩
      have hfree := hcareful.accepts (Call.make LoopOp.exec op s) (by simp)
      have hspares := hcareful.spares (Call.make LoopOp.exec op s) (by simp)
      exact ⟨hplaced.step hinv op hop hfree hok, hout.step op hspares hok,
        hreg.step hinv hplaced hout op hop hspares hok⟩
  exact (hall.2 hcareful).2.2

end Cannet.Net
