import Cannet.Net.Connection.Stream
import Cannet.Net.Loop.Addressed

/-!
# The outgoing streams of a loop

Many connections share a loop, are sent messages in turns, closed, and used again for other
sockets. Over all of that each life of a connection has a stream of its own (`streams_apart`): what
the kernel accepts of its messages is the beginning of what was given to it to send in that life,
in order, whatever happens to other connections and to other lives in between; and while it is
live, the rest is in its buffer. A message whose direct write finds the connection dead
(`EPIPE`, `ECONNRESET`) is dropped as a whole and counts as not given. All bytes of a life, those of
attached files included, go through one descriptor. `Sends` says it of one call.
-/

namespace Cannet.Net

open Foundations EventLoop TcpConnection

variable {β : Type}

/-- What `sendInLoop` was given. -/
def Effect.givenBytes : Effect β → List β
  | .sendInLoop data _ => data
  | _ => []

/-- The bytes that a call on a live connection gives it to send: none if its direct write found the
connection dead. -/
def given (es : List (Effect β)) : List β :=
  if faulted es then [] else es.flatMap Effect.givenBytes

/-- The bytes that a step gives to a connection in one of its lives. -/
def sentBy (i life : ℕ) (call : LoopCall β) : List β :=
  if (call.before.conn i).Live then given (lifeTrace call.outcome.trace i life) else []

/-- The bytes that a connection is given in one of its lives, in order. -/
def sent (calls : List (LoopCall β)) (i life : ℕ) : List β := calls.flatMap (sentBy i life)

/-! ## One call -/

namespace TcpConnection

/-- What a call does to the stream of a connection. -/
structure Sends (c : TcpConnection β) (o : Outcome Abort (Effect β) (TcpConnection β) Unit) :
    Prop where
  stream : c.Live → accepted o.trace ++ o.state.outputBuffer.readable =
    c.outputBuffer.readable ++ given o.trace
  silent : ¬c.Live → accepted o.trace = []
  off : o.state.state = .kDisconnected → o.state.channel.isWriting = false

section Quiet

variable (c : TcpConnection β) (ch : Channel)

@[simp] theorem given_nil : given ([] : List (Effect β)) = [] := rfl

@[simp] theorem accepted_closeCalls : accepted c.closeCalls = [] := by
  unfold closeCalls Channel.removeCalls
  split <;> rfl

@[simp] theorem givenBytes_closeCalls : c.closeCalls.flatMap Effect.givenBytes = [] := by
  unfold closeCalls Channel.removeCalls
  split <;> rfl

@[simp] theorem givenBytes_writingOnCalls :
    (ch.writingOnCalls : List (Effect β)).flatMap Effect.givenBytes = [] := by
  unfold Channel.writingOnCalls
  split <;> rfl

@[simp] theorem givenBytes_writingOffCalls :
    (ch.writingOffCalls : List (Effect β)).flatMap Effect.givenBytes = [] := rfl

@[simp] theorem givenBytes_completion : c.completion.flatMap Effect.givenBytes = [] := by
  unfold completion
  split <;> rfl

@[simp] theorem givenBytes_sentCalls : c.sentCalls.flatMap Effect.givenBytes = [] := by
  unfold sentCalls
  split <;> simp [Effect.givenBytes]

@[simp] theorem givenBytes_halfClose : c.halfClose.flatMap Effect.givenBytes = [] := by
  unfold halfClose
  split <;> rfl

end Quiet

theorem given_eq_nil {es : List (Effect β)} (h : es.flatMap Effect.givenBytes = []) :
    given es = [] := by
  rw [given, h, ite_self]

variable {c : TcpConnection β}

/-- A call that leaves the output alone. -/
theorem Sends.of_quiet {o : Outcome Abort (Effect β) (TcpConnection β) Unit}
    (haccepted : accepted o.trace = []) (hgiven : o.trace.flatMap Effect.givenBytes = [])
    (hbuffer : o.state.outputBuffer = c.outputBuffer)
    (hoff : o.state.state = .kDisconnected → o.state.channel.isWriting = false) : c.Sends o where
  stream _ := by rw [haccepted, hbuffer, given_eq_nil hgiven, List.nil_append, List.append_nil]
  silent _ := haccepted
  off := hoff

theorem sends_handleClose (hok : (handleClose c).val = .ok ()) : c.Sends (handleClose c) := by
  have ho := handleClose_outcome c
  generalize handleClose c = o at ho hok ⊢
  cases ho with
  | refused => cases hok
  | unset => cases hok
  | closed =>
    exact .of_quiet c.accepted_closeCalls c.givenBytes_closeCalls rfl fun _ => isWriting_closed c

variable (hoff : c.state = .kDisconnected → c.channel.isWriting = false)

include hoff

theorem sends_handleError : c.Sends (handleError c) := .of_quiet rfl rfl rfl hoff

theorem sends_handleRead [Inhabited β] (hwf : c.inputBuffer.Wf) (r : ReadRet β)
    (hok : (handleRead r c).val = .ok ()) : c.Sends (handleRead r c) := by
  have ho := handleRead_outcome hwf r
  generalize handleRead r c = o at ho hok ⊢
  cases ho with
  | failed e => exact .of_quiet rfl rfl rfl hoff
  | ended b _ =>
    have hc : Sends { c with inputBuffer := b } (handleClose { c with inputBuffer := b }) :=
      sends_handleClose hok
    exact ⟨hc.stream, hc.silent, hc.off⟩
  | received data _ _ b _ => exact .of_quiet rfl rfl rfl hoff
  | unset => cases hok

theorem sends_handleWrite (hwf : c.outputBuffer.Wf) (hsettled : c.state ≠ .kConnecting)
    {r : SysRet} (hok : (handleWrite r c).val = .ok ()) : c.Sends (handleWrite r c) := by
  have hlive : c.channel.isWriting = true → c.Live := fun hon => by
    unfold Live
    cases hs : c.state with
    | kDisconnected =>
      rw [hoff hs] at hon
      cases hon
    | kConnecting => exact absurd hs hsettled
    | kConnected => exact .inl rfl
    | kDisconnecting => exact .inr rfl
  have hidle : ∀ c' : TcpConnection β, c'.state = c.state → c.channel.isWriting = true →
      c'.state = .kDisconnected → c'.channel.isWriting = false := fun c' hstate hon hs => by
    rcases hlive hon with h | h <;> rw [hstate, h] at hs <;> cases hs
  have ho := handleWrite_returned hwf hok
  generalize handleWrite r c = o at ho ⊢
  cases ho with
  | idle hidle => exact .of_quiet rfl rfl rfl hoff
  | nothing => exact .of_quiet rfl rfl rfl hoff
  | failed hon _ hr =>
    refine ⟨fun _ => ?_, fun hdead => absurd (hlive hon) hdead, hoff⟩
    cases r with
    | ok n =>
      cases hr
      simp [given, Effect.acceptedBytes, Effect.givenBytes]
    | err e => simp [given, Effect.acceptedBytes, Effect.givenBytes]
  | short hon n hr _ _ b hb hread =>
    subst hr
    refine ⟨fun _ => ?_, fun hdead => absurd (hlive hon) hdead, hidle _ rfl hon⟩
    simp [given, hread, Effect.acceptedBytes, Effect.givenBytes]
  | drained hon hr _ b hb hread =>
    subst hr
    refine ⟨fun _ => ?_, fun hdead => absurd (hlive hon) hdead, hidle _ rfl hon⟩
    simp [given, hread, Effect.acceptedBytes, Effect.givenBytes]
  | fileFailed hon => exact .of_quiet rfl rfl rfl hoff
  | fileShort hon => exact .of_quiet rfl rfl rfl hoff
  | fileSent hon =>
    refine .of_quiet ?_ ?_ rfl (hidle _ rfl hon)
    · simp [sendfileCall, Effect.acceptedBytes]
    · simp [sendfileCall, Effect.givenBytes]

omit hoff in
/-- The direct write of `sendInLoop` gives nothing more to send. -/
theorem direct_quiet {w : SysRet} {data : List β} {d : Written} {es : List (Effect β)}
    (hd : Direct w data c d es) :
    es.flatMap Effect.givenBytes = [] := by
  cases hd with
  | skipped => rfl
  | failed e => rfl
  | wrote n =>
    split
    · simp [Effect.givenBytes]
    · rfl

omit hoff in
theorem file_quiet {f : SysRet} {file : SendFileUtil}
    {o : Outcome Abort (Effect β) (TcpConnection β) Unit} (ho : FileOutcome f file c o) :
    o.trace.flatMap Effect.givenBytes = [] := by
  cases ho <;> simp [sendfileCall, Effect.givenBytes]

theorem sends_sendInLoop [Inhabited β] (hwf : c.outputBuffer.Wf)
    (hsettled : c.state ≠ .kConnecting) (w f : SysRet) (data : List β) :
    c.Sends (sendInLoop w f data data.length c) := by
  by_cases hs : c.state = .kDisconnected
  · have hdead : ¬c.Live := by simp [Live, hs]
    have ho := sendInLoop_outcome w f data hwf
    have hclosed : sendInLoop w f data data.length c =
        ⟨.ok (), c, [.sendInLoop data data.length]⟩ := by
      rw [sendInLoop, Act.emit_bind, Act.get_bind, Act.ite_apply, if_pos hs]
      rfl
    rw [hclosed]
    exact ⟨fun hlive => absurd hlive hdead, fun _ => rfl, hoff⟩
  have hlive : c.Live := by
    unfold Live
    cases hc : c.state <;> simp_all
  have hstream := (send_streams hwf hlive data w f).stream
  rw [send_live w f data hlive] at hstream
  have ho := sendInLoop_outcome w f data hwf
  generalize sendInLoop w f data data.length c = o at ho hstream ⊢
  suffices hrest : given o.trace = added (.send data w f) o.trace ∧
      o.state.state ≠ .kDisconnected by
    refine ⟨fun _ => ?_, fun hdead => absurd hlive hdead, fun h => absurd h hrest.2⟩
    rw [hrest.1]
    exact hstream
  cases ho with
  | disconnected h => exact absurd h hs
  | buffered d es hd =>
    refine ⟨?_, hs⟩
    simp [given, added, Effect.givenBytes, direct_quiet hd]
  | finished d es hd =>
    refine ⟨?_, hs⟩
    simp [given, added, Effect.givenBytes, direct_quiet hd]
  | file d es hd _ file _ o ho =>
    refine ⟨?_, ?_⟩
    · simp [given, added, Effect.givenBytes, direct_quiet hd, file_quiet ho]
    · rw [Outcome.state_after, ho.quiet.state]
      exact hs

theorem sends_startReadInLoop : c.Sends (startReadInLoop c) := by
  rw [startReadInLoop_apply]
  split
  · refine .of_quiet rfl rfl rfl fun hs => ?_
    rw [Channel.isWriting_readingOn]
    exact hoff hs
  · exact .of_quiet rfl rfl rfl hoff

theorem sends_stopReadInLoop : c.Sends (stopReadInLoop c) := by
  rw [stopReadInLoop_apply]
  split
  · refine .of_quiet rfl rfl rfl fun hs => ?_
    rw [Channel.isWriting_readingOff]
    exact hoff hs
  · exact .of_quiet rfl rfl rfl hoff

theorem sends_shutdownInLoop : c.Sends (shutdownInLoop c) := by
  rw [shutdownInLoop_apply]
  exact .of_quiet (by simp) c.givenBytes_halfClose rfl hoff

theorem sends_runInLoop {functor : Functor β} {call : Conn β Unit} (onLoop : Bool)
    (hcall : c.Sends (call c)) : c.Sends (runInLoop onLoop functor call c) := by
  rw [runInLoop, Act.ite_apply]
  split
  · exact hcall
  · exact .of_quiet rfl rfl rfl hoff

theorem sends_shutdown (onLoop : Bool) : c.Sends (shutdown onLoop c) := by
  rw [shutdown, Act.get_bind, Act.ite_apply]
  split
  · let c₁ : TcpConnection β := { c with state := .kDisconnecting }
    have h₁ : c₁.state = .kDisconnected → c₁.channel.isWriting = false :=
      fun hs => (by cases hs)
    have hsends : c₁.Sends (runInLoop onLoop .shutdownInLoop shutdownInLoop c₁) :=
      sends_runInLoop h₁ onLoop (sends_shutdownInLoop h₁)
    exact ⟨fun _ => hsends.stream (.inr rfl), fun hdead => absurd (.inl ‹_›) hdead, hsends.off⟩
  · exact .of_quiet rfl rfl rfl hoff

theorem sends_forceClose : c.Sends (forceClose c) := by
  rw [forceClose_apply, forceClosing, forceCloseCalls]
  split
  · exact .of_quiet rfl rfl rfl fun hs => (by cases hs)
  · exact .of_quiet rfl rfl rfl hoff

theorem sends_request [Inhabited β] (hwf : c.outputBuffer.Wf) (hsettled : c.state ≠ .kConnecting)
    (r : Request β) : c.Sends (r.call c) := by
  cases r with
  | send onLoop message w f =>
    have hsends := sends_sendInLoop hoff hwf hsettled w f message
    rw [Request.call, send, Act.get_bind, Act.ite_apply]
    split
    · rw [Act.ite_apply]
      split
      · exact hsends
      · exact .of_quiet rfl rfl rfl hoff
    · exact sends_runInLoop hoff onLoop hsends
  | shutdown onLoop => exact sends_shutdown hoff onLoop
  | forceClose => exact sends_forceClose hoff
  | startRead onLoop => exact sends_runInLoop hoff onLoop (sends_startReadInLoop hoff)
  | stopRead onLoop => exact sends_runInLoop hoff onLoop (sends_stopReadInLoop hoff)
  | setTcpNoDelay on => exact .of_quiet rfl rfl rfl hoff
  | setSendFile file => exact .of_quiet rfl rfl rfl hoff

theorem sends_callback [Inhabited β] (hin : c.inputBuffer.Wf) (hout : c.outputBuffer.Wf)
    (hsettled : c.state ≠ .kConnecting) (callback : ChannelCallback β)
    (hok : (callback.call c).val = .ok ()) : c.Sends (callback.call c) := by
  cases callback with
  | closeCallback => exact sends_handleClose hok
  | errorCallback => exact sends_handleError hoff
  | readCallback r => exact sends_handleRead hoff hin r hok
  | writeCallback w => exact sends_handleWrite hoff hout hsettled hok

theorem sends_functor [Inhabited β] (hwf : c.outputBuffer.Wf) (hsettled : c.state ≠ .kConnecting)
    (w f : SysRet) (g : Functor β) (hok : (g.call w f c).val = .ok ()) :
    c.Sends (g.call w f c) := by
  cases g with
  | writeCompleteCallback =>
    rw [Functor.call, Act.get_bind, Act.ite_apply]
    split <;> exact .of_quiet rfl rfl rfl hoff
  | sendInLoop message =>
    cases message with
    | byValue message => exact sends_sendInLoop hoff hwf hsettled w f message
    | byReference => cases hok
  | shutdownInLoop => exact sends_shutdownInLoop hoff
  | forceCloseInLoop =>
    rw [Functor.call, forceCloseInLoop, Act.get_bind, Act.ite_apply] at hok ⊢
    split
    · rename_i hlive
      rw [if_pos hlive] at hok
      exact sends_handleClose hok
    · exact .of_quiet rfl rfl rfl hoff
  | startReadInLoop => exact sends_startReadInLoop hoff
  | stopReadInLoop => exact sends_stopReadInLoop hoff

end TcpConnection

/-! ## The loop -/

/-- All bytes of a life went through one descriptor, and what was accepted of its messages is the
beginning of what was given in it. -/
structure StreamOf (es : List (Effect β)) (given : List β) : Prop where
  accepted : accepted es <+: given
  addressed : OneDescriptor es

/-- The streams of all lives so far. -/
structure StreamsApart (calls : List (LoopCall β)) (s : EventLoop β) : Prop where
  past : ∀ i < s.made, ∀ l < s.life i,
    accepted (lifeTrace (traceOf calls) i l) <+: sent calls i l
  current : ∀ i < s.made,
    accepted (lifeTrace (traceOf calls) i (s.life i)) <+: sent calls i (s.life i)
  buffered : ∀ i < s.made, (s.conn i).Live →
    accepted (lifeTrace (traceOf calls) i (s.life i)) ++ (s.conn i).outputBuffer.readable =
      sent calls i (s.life i)
  off : ∀ i < s.made, (s.conn i).state = .kDisconnected → (s.conn i).channel.isWriting = false

@[simp] theorem sent_nil (i l : ℕ) : sent ([] : List (LoopCall β)) i l = [] := rfl

@[simp] theorem sent_append (calls calls' : List (LoopCall β)) (i l : ℕ) :
    sent (calls ++ calls') i l = sent calls i l ++ sent calls' i l := List.flatMap_append

@[simp] theorem sent_singleton (call : LoopCall β) (i l : ℕ) :
    sent [call] i l = sentBy i l call := List.flatMap_singleton _ _

/-- Nothing was given in a life in which nothing was done. -/
theorem sent_eq_nil {calls : List (LoopCall β)} {i l : ℕ}
    (h : lifeTrace (traceOf calls) i l = []) : sent calls i l = [] := by
  induction calls with
  | nil => rfl
  | cons call calls ih =>
    have hsplit : traceOf (call :: calls) = call.outcome.trace ++ traceOf calls := rfl
    rw [hsplit, lifeTrace_append, List.append_eq_nil_iff] at h
    have hcons : sent (call :: calls) i l = sentBy i l call ++ sent calls i l :=
      List.flatMap_cons
    rw [hcons, ih h.2, List.append_nil, sentBy, h.1]
    exact ite_self _

namespace StreamsApart

variable {calls : List (LoopCall β)} {s s' : EventLoop β} {call : LoopCall β} {i : ℕ}

theorem start [Inhabited β] : StreamsApart [] (EventLoop.start : EventLoop β) :=
  ⟨fun _ h => absurd h (Nat.not_lt_zero _), fun _ h => absurd h (Nat.not_lt_zero _),
    fun _ h => absurd h (Nat.not_lt_zero _), fun _ h => absurd h (Nat.not_lt_zero _)⟩

/-- A step that does nothing for any connection. -/
theorem idle (h : StreamsApart calls s) (htrace : call.outcome.trace = [])
    (hconn : s'.conn = s.conn) (hmade : s'.made = s.made) (hlife : s'.life = s.life) :
    StreamsApart (calls ++ [call]) s' := by
  have hsent : ∀ i l, sent (calls ++ [call]) i l = sent calls i l := fun i l => by
    rw [sent_append, sent_singleton, sentBy, htrace, lifeTrace_nil, given_nil, ite_self,
      List.append_nil]
  have htraces : traceOf (calls ++ [call]) = traceOf calls := by
    rw [traceOf_append, traceOf_singleton, htrace, List.append_nil]
  have hpast := h.past
  have hcurrent := h.current
  have hbuffered := h.buffered
  have hoff := h.off
  constructor <;> simp only [hsent, htraces, hconn, hmade, hlife]
  · exact hpast
  · exact hcurrent
  · exact hbuffered
  · exact hoff

/-- A call on connection `i` adds nothing to the other lives. -/
theorem life_other (calls : List (LoopCall β)) {es : List (Effect β)} {life j l : ℕ}
    (hcall : call.outcome.trace = es.map (LifeEffect.mk i life)) (hne : ¬(i = j ∧ life = l)) :
    lifeTrace (traceOf (calls ++ [call])) j l = lifeTrace (traceOf calls) j l ∧
      sent (calls ++ [call]) j l = sent calls j l := by
  have hnone : lifeTrace call.outcome.trace j l = [] := by
    rw [hcall]
    exact lifeTrace_tag_of_ne hne es
  rw [traceOf_append, traceOf_singleton, lifeTrace_append, hnone, List.append_nil, sent_append,
    sent_singleton, sentBy, hnone, given_nil, ite_self, List.append_nil]
  exact ⟨rfl, rfl⟩

/-- What it adds to its own. -/
theorem life_self (calls : List (LoopCall β)) {es : List (Effect β)} {life : ℕ}
    (hcall : call.outcome.trace = es.map (LifeEffect.mk i life)) :
    lifeTrace (traceOf (calls ++ [call])) i life = lifeTrace (traceOf calls) i life ++ es ∧
      sent (calls ++ [call]) i life =
        sent calls i life ++ if (call.before.conn i).Live then given es else [] := by
  rw [traceOf_append, traceOf_singleton, lifeTrace_append, hcall, lifeTrace_tag, sent_append,
    sent_singleton, sentBy, hcall, lifeTrace_tag]
  exact ⟨rfl, rfl⟩

/-- **The stream of a life goes on** with a call on its connection. -/
theorem goesOn {before given' : List β} {es es' : List (Effect β)} {c : TcpConnection β}
    {o : Outcome Abort (Effect β) (TcpConnection β) Unit} (h : accepted es <+: before)
    (hbuffered : c.Live → accepted es ++ c.outputBuffer.readable = before) (hsends : c.Sends o)
    (hes' : es' = o.trace) (hgiven : given' = before ++ if c.Live then given es' else []) :
    accepted (es ++ es') <+: given' ∧
      (c.Live → accepted (es ++ es') ++ o.state.outputBuffer.readable = given') := by
  subst hes' hgiven
  rw [accepted_append]
  by_cases hlive : c.Live
  · have hall : (accepted es ++ accepted o.trace) ++ o.state.outputBuffer.readable =
        before ++ if c.Live then given o.trace else [] := by
      rw [List.append_assoc, hsends.stream hlive, ← List.append_assoc, hbuffered hlive,
        if_pos hlive]
    exact ⟨⟨_, hall⟩, fun _ => hall⟩
  · refine ⟨?_, fun h => absurd h hlive⟩
    rw [hsends.silent hlive, if_neg hlive, List.append_nil, List.append_nil]
    exact h

/-- **A call on a connection** goes on with the stream of its life, and leaves the others. -/
theorem onConnection (h : StreamsApart calls s) {x : Conn β Unit} (hi : i < s.made)
    (hsends : (s.conn i).Sends (x (s.conn i)))
    (hmoves : Moves (s.conn i) (x (s.conn i)).trace (x (s.conn i)).state)
    (hbefore : call.before.conn = s.conn)
    (hcall : call.outcome = EventLoop.onConnection i x s) :
    StreamsApart (calls ++ [call]) (EventLoop.onConnection i x s).state := by
  obtain ⟨s', hs', hp⟩ := onConnection_spec i x s
  have hconn : s'.conn = Function.update s.conn i (x (s.conn i)).state := hp.conn
  have hmade : s'.made = s.made := hp.made
  have hlife : s'.life = s.life := hp.life
  have hcallTrace : call.outcome.trace = (x (s.conn i)).trace.map (LifeEffect.mk i (s.life i)) := by
    rw [hcall, hs']
  obtain ⟨hself, hgiven⟩ := life_self calls hcallTrace
  rw [hbefore] at hgiven
  obtain ⟨hbegins, hrest⟩ := goesOn (h.current i hi) (h.buffered i hi) hsends rfl hgiven
  rw [hs']
  constructor <;> simp only [hmade, hlife]
  · intro j hj l hl
    obtain ⟨htrace, hsent⟩ := life_other calls hcallTrace
      (fun heq : i = j ∧ s.life i = l => by
        obtain ⟨rfl, rfl⟩ := heq
        exact Nat.lt_irrefl _ hl)
    rw [htrace, hsent]
    exact h.past j hj l hl
  all_goals
    intro j hj
    by_cases hji : i = j
    · subst hji
      simp only [hself, hconn, Function.update_self]
      first
        | exact hbegins
        | exact fun hlive => hrest (hmoves.live hlive)
        | exact hsends.off
    · obtain ⟨htrace, hsent⟩ := life_other calls hcallTrace
        (fun heq : i = j ∧ s.life i = s.life j => hji heq.1)
      simp only [htrace, hsent, hconn, Function.update_of_ne (Ne.symm hji)]
      first
        | exact h.current j hj
        | exact h.buffered j hj
        | exact h.off j hj

/-- **A life begins** with an empty stream. -/
theorem opened (h : StreamsApart calls s) {l : ℕ} {fd : ℤ} {es : List (Effect β)}
    (hcall : call.outcome.trace = (.setKeepAlive fd :: es).map (LifeEffect.mk i l))
    (hquiet : accepted es = [] ∧ es.flatMap Effect.givenBytes = [])
    (hnew : lifeTrace (traceOf calls) i l = [])
    (hpast : ∀ l' < l, accepted (lifeTrace (traceOf calls) i l') <+: sent calls i l')
    (hmade : ∀ j < s'.made, j ≠ i → j < s.made) (hlife : s'.life i = l)
    (hempty : (s'.conn i).outputBuffer.readable = [])
    (hopen : (s'.conn i).state ≠ .kDisconnected)
    (hothers : ∀ j, j ≠ i → s'.conn j = s.conn j ∧ s'.life j = s.life j) :
    StreamsApart (calls ++ [call]) s' := by
  obtain ⟨hself, hgiven⟩ := life_self calls hcall
  obtain ⟨haccepted, hbytes⟩ := hquiet
  have hnone : given (.setKeepAlive fd :: es) = [] := given_eq_nil hbytes
  rw [hnew, List.nil_append] at hself
  rw [sent_eq_nil hnew, hnone, ite_self, List.append_nil] at hgiven
  have hstream : accepted (.setKeepAlive fd :: es) = [] := haccepted
  constructor
  · intro j hj l' hl'
    have hne : ¬(i = j ∧ l = l') := fun heq => by
      obtain ⟨rfl, rfl⟩ := heq
      omega
    obtain ⟨htrace, hsent⟩ := life_other calls hcall hne
    rw [htrace, hsent]
    by_cases hji : j = i
    · subst hji
      exact hpast l' (hlife ▸ hl')
    · rw [(hothers j hji).2] at hl'
      exact h.past j (hmade j hj hji) l' hl'
  · intro j hj
    by_cases hji : j = i
    · subst hji
      rw [hlife, hself, hgiven]
      exact List.prefix_nil.2 hstream
    · obtain ⟨htrace, hsent⟩ := life_other calls hcall
        (fun heq : i = j ∧ l = s.life j => hji heq.1.symm)
      rw [(hothers j hji).2, htrace, hsent]
      exact h.current j (hmade j hj hji)
  · intro j hj hlive
    by_cases hji : j = i
    · subst hji
      rw [hlife, hself, hgiven, hstream, hempty]
      rfl
    · obtain ⟨htrace, hsent⟩ := life_other calls hcall
        (fun heq : i = j ∧ l = s.life j => hji heq.1.symm)
      rw [(hothers j hji).1] at hlive ⊢
      rw [(hothers j hji).2, htrace, hsent]
      exact h.buffered j (hmade j hj hji) hlive
  · intro j hj hs
    by_cases hji : j = i
    · subst hji
      exact absurd hs hopen
    · rw [(hothers j hji).1] at hs ⊢
      exact h.off j (hmade j hj hji) hs

theorem readCall_quiet (c : TcpConnection β) :
    accepted [c.readCall, .connectionCallback true] = [] ∧
      [c.readCall, .connectionCallback true].flatMap Effect.givenBytes = [] := ⟨rfl, rfl⟩

/-- `connectEstablished` when it returns. -/
theorem connectEstablished_returned {c : TcpConnection β}
    (hok : (TcpConnection.connectEstablished c).val = .ok ()) :
    TcpConnection.connectEstablished c =
      ⟨.ok (), c.established, [c.readCall, .connectionCallback true]⟩ := by
  have ho := connectEstablished_outcome c
  generalize TcpConnection.connectEstablished c = o at ho hok ⊢
  cases ho with
  | refused => cases hok
  | unset => cases hok
  | opened => rfl

/-- A connection that has been installed for a new socket is established. -/
theorem installed (h : StreamsApart calls s) (s₁ : EventLoop β) {l : ℕ} {fd : ℤ}
    (hcall : call.outcome =
      (EventLoop.onConnection i TcpConnection.connectEstablished s₁).after
        [⟨i, l, .setKeepAlive fd⟩])
    (hok : (EventLoop.onConnection i TcpConnection.connectEstablished s₁).val = .ok ())
    (hnew : lifeTrace (traceOf calls) i l = [])
    (hpast : ∀ l' < l, accepted (lifeTrace (traceOf calls) i l') <+: sent calls i l')
    (hmade : ∀ j < s₁.made, j ≠ i → j < s.made) (hlife : s₁.life i = l)
    (hempty : (s₁.conn i).outputBuffer.readable = [])
    (hothers : ∀ j, j ≠ i → s₁.conn j = s.conn j ∧ s₁.life j = s.life j) :
    StreamsApart (calls ++ [call])
      (EventLoop.onConnection i TcpConnection.connectEstablished s₁).state := by
  have hest := connectEstablished_returned (c := s₁.conn i) hok
  obtain ⟨hlife', hself, hothers'⟩ :=
    EventLoop.onConnection_frame i TcpConnection.connectEstablished s₁
  have hmade' : (EventLoop.onConnection i TcpConnection.connectEstablished s₁).state.made =
      s₁.made := EventLoop.made_onConnection i TcpConnection.connectEstablished s₁
  rw [hest] at hself
  have htrace : call.outcome.trace =
      (.setKeepAlive fd :: [(s₁.conn i).readCall, .connectionCallback true]).map
        (LifeEffect.mk i l) := by
    obtain ⟨s₂, hs₂, -⟩ := onConnection_spec i TcpConnection.connectEstablished s₁
    rw [hcall, hs₂, hest, hlife]
    rfl
  refine h.opened htrace (readCall_quiet _) hnew hpast ?_ ?_ ?_ ?_ ?_
  · rw [hmade']
    exact hmade
  · rw [hlife', hlife]
  · rw [hself]
    exact hempty
  · rw [hself]
    nofun
  · intro j hji
    rw [hothers' j hji, hlife']
    exact hothers j hji

variable [Inhabited β]

theorem createConnection {J : List (Effect β) → TcpConnection β → Prop}
    (h : StreamsApart calls s) (hlives : Lives J (traceOf calls) s.made s.life s.conn)
    (hhandles : ∀ i, some i ∈ s.connectionsPool → i < s.made) (sockFd : ℤ)
    (connectCallback messageCallback writeCompleteCallback : Option Callback)
    (hcall : call.outcome = EventLoop.createConnection sockFd connectCallback messageCallback
      writeCompleteCallback s)
    (hok : (EventLoop.createConnection sockFd connectCallback messageCallback
      writeCompleteCallback s).val = .ok ()) :
    StreamsApart (calls ++ [call]) (EventLoop.createConnection sockFd connectCallback
      messageCallback writeCompleteCallback s).state := by
  rcases hpool : s.connectionsPool.getLast? with _ | _ | i
  · rw [createConnection_new s _ _ _ _ hpool] at hok hcall ⊢
    let s₁ := s.extended sockFd connectCallback messageCallback writeCompleteCallback
    have hnew : s₁.conn s.made =
        newConn sockFd connectCallback messageCallback writeCompleteCallback :=
      Function.update_self _ _ _
    exact h.installed s₁ hcall hok (hlives.lifeTrace_of_le (Nat.le_refl _) _)
      (fun l' hl' => absurd hl' (by simp [hlives.unused s.made (Nat.le_refl _)]))
      (fun j hj hji => by
        have hj : j < s.made + 1 := hj
        omega)
      rfl (by rw [hnew]; rfl)
      fun j hji => ⟨Function.update_of_ne hji _ _, rfl⟩
  · rw [createConnection_null s _ _ _ _ hpool] at hok
    cases hok
  · rw [createConnection_reuse s _ _ _ _ hpool] at hok hcall ⊢
    have hi : i < s.made := hhandles i (List.mem_of_getLast? hpool)
    let s₁ := s.reused sockFd i
    have hreset : s₁.conn i = (connectReset sockFd (s.conn i)).state :=
      Function.update_self _ _ _
    refine h.installed s₁ hcall hok
      (hlives.lifeTrace_of_lt (Nat.lt_succ_self _)) (fun l' hl' => ?_) (fun j hj _ => hj)
      (Function.update_self _ _ _) (by rw [hreset]; exact Buffer.readable_retrieveAll _)
      fun j hji => ⟨Function.update_of_ne hji _ _, Function.update_of_ne hji _ _⟩
    rcases Nat.lt_succ_iff_lt_or_eq.1 hl' with hlt | rfl
    · exact h.past i hi l' hlt
    · exact h.current i hi

theorem runFunctor (h : StreamsApart calls s)
    (hinv : LoopInvariant Standing (traceOf calls) s) (w f : SysRet)
    (hbefore : call.before.conn = s.conn)
    (hcall : call.outcome = EventLoop.runFunctor w f s)
    (hok : (EventLoop.runFunctor w f s).val = .ok ()) :
    StreamsApart (calls ++ [call]) (EventLoop.runFunctor w f s).state := by
  cases hrunning : s.running with
  | nil =>
    rw [runFunctor_nil w f hrunning] at hcall ⊢
    exact h.idle (by rw [hcall]) rfl rfl rfl
  | cons functor rest =>
    rw [runFunctor_cons w f hrunning] at hcall hok ⊢
    have hrest : StreamsApart calls { s with running := rest } :=
      ⟨h.past, h.current, h.buffered, h.off⟩
    cases functor with
    | createConnection sockFd connectCallback messageCallback writeCompleteCallback =>
      exact hrest.createConnection hinv.lives hinv.handles.pool _ _ _ _ hcall hok
    | connection i life g =>
      have hi : i < s.made := hinv.handles.functors i life g (by simp [hrunning])
      have hc := hinv.lives.current i hi
      exact hrest.onConnection hi (sends_functor (h.off i hi) hc.output hc.settled w f g hok)
        (.functor hc w f g hok) hbefore hcall

/-- One step of the loop. -/
theorem step (h : StreamsApart calls s) (hinv : LoopInvariant Standing (traceOf calls) s)
    (op : LoopOp β) (hop : Scheduled calls (Call.make LoopOp.exec op s))
    (hok : (op.exec s).val = .ok ()) :
    StreamsApart (calls ++ [Call.make LoopOp.exec op s]) (op.exec s).state := by
  cases op with
  | newConnection sockFd connectCallback messageCallback writeCompleteCallback =>
    exact h.idle rfl rfl rfl rfl
  | swapFunctors => exact h.idle rfl rfl rfl rfl
  | handleEvent i callback =>
    have hc := hinv.lives.current i hop.2
    exact h.onConnection hop.2
      (sends_callback (h.off i hop.2) hc.input hc.output hc.settled callback hok)
      (.callback hc callback hok) rfl rfl
  | request i r =>
    have hc := hinv.lives.current i hop
    exact h.onConnection hop (sends_request (h.off i hop) hc.output hc.settled r)
      (.request r _) rfl rfl
  | runFunctor w f => exact h.runFunctor hinv w f rfl rfl hok

end StreamsApart

theorem streamsApart_of_run [Inhabited β] {calls : List (LoopCall β)} {s : EventLoop β}
    (h : Run LoopOp.exec Scheduled EventLoop.start calls s) : StreamsApart calls s := by
  have hboth : LoopInvariant Standing (traceOf calls) s ∧ StreamsApart calls s := by
    refine h.invariant (I := fun calls s => LoopInvariant Standing (traceOf calls) s ∧
      StreamsApart calls s) ⟨.start Standing, .start⟩ ?_
    rintro calls s op ⟨hinv, happart⟩ hop hok
    refine ⟨?_, happart.step hinv op hop hok⟩
    rw [traceOf_append, traceOf_singleton]
    exact hinv.step standing_staged op hop hok
  exact hboth.2

/-- **Every life of every connection has a stream of its own**, after every run of a loop: all bytes
of a life, in messages, files and reads, went through one descriptor, that of the socket it was
opened for, and what was accepted of its messages is the beginning of what was given to send in it.
While it is live, its buffer has the rest. -/
theorem streams_apart [Inhabited β] {calls : List (LoopCall β)} {s : EventLoop β}
    (h : Run LoopOp.exec Scheduled EventLoop.start calls s) :
    (∀ i < s.made, ∀ l ≤ s.life i, StreamOf (lifeTrace (traceOf calls) i l) (sent calls i l)) ∧
      ∀ i < s.made, (s.conn i).Live →
        accepted (lifeTrace (traceOf calls) i (s.life i)) ++ (s.conn i).outputBuffer.readable =
          sent calls i (s.life i) := by
  have happart := streamsApart_of_run h
  refine ⟨fun i hi l hl => ⟨?_, ?_⟩, happart.buffered⟩
  · rcases Nat.lt_or_eq_of_le hl with hlt | rfl
    · exact happart.past i hi l hlt
    · exact happart.current i hi
  · obtain ⟨c, -, haddressed⟩ := (stagedInvariant_of_run addressed_staged h).lives.all hi hl
    exact haddressed.oneDescriptor

/-- Connections 0 and 1 are written to in turns; 0 is closed with 4 bytes unsent, and is used again
for another socket. -/
theorem streams_apart_of_reuse :
    ∃ calls s, Run (LoopOp.exec (β := ℕ)) Scheduled EventLoop.start calls s ∧
      (∀ l ≤ 1, StreamOf (lifeTrace (traceOf calls) 0 l) (sent calls 0 l)) ∧
      sent calls 0 0 = [1, 2, 3, 4, 5] ∧ accepted (lifeTrace (traceOf calls) 0 0) = [1] ∧
      sent calls 0 1 = [9] ∧ accepted (lifeTrace (traceOf calls) 0 1) = [9] ∧
      sent calls 1 0 = [6, 7] ∧ (s.conn 1).outputBuffer.readable = [7] := by
  have hrun : Run (LoopOp.exec (β := ℕ)) Scheduled EventLoop.start _ _ :=
    run_replay [.newConnection 5 (some 0) (some 1) none, .newConnection 6 (some 0) (some 1) none,
      .swapFunctors, .runFunctor (.ok 0) (.ok 0), .runFunctor (.ok 0) (.ok 0),
      .request 0 (.send true [1, 2, 3] (.ok 1) (.ok 0)),
      .request 1 (.send true [6, 7] (.ok 1) (.ok 0)),
      .request 0 (.send true [4, 5] (.ok 0) (.ok 0)), .handleEvent 0 .closeCallback,
      .newConnection 8 (some 0) (some 1) none, .swapFunctors, .runFunctor (.ok 0) (.ok 0),
      .request 0 (.send true [9] (.ok 1) (.ok 0))] (by decide +kernel)
  have happart := streams_apart hrun
  refine ⟨_, _, hrun, fun l hl => happart.1 0 ?_ l (Nat.le_trans hl ?_), ?_, ?_, ?_, ?_, ?_, ?_⟩
  all_goals decide +kernel

end Cannet.Net
