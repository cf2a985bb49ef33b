import NettyCluster.Session.SessionManager

/-
  How a node handles a message that carries data.

  The receiver's sessions are looked up and each is written
  to, the node's own clients directly and the others through
  the senders of their nodes. Messages from clients and from
  peers take the same path.

  Main declarations:
    * `MsgProcesser.action`
    * `BinaryHandler.channelRead`
    * `Source`, `Site.receive`
    * `writeToSessions_written`
-/

------------------------------------------------------------
-- The Handlers
------------------------------------------------------------

namespace NettyCluster

open MessageInfo

variable {ι : Type}

/-
  Write a message to every session of its receiver. Both
  handlers have this as their own lines.
-/
def writeToSessions
    (site : Site ι)
    (model : Model) : Done ι :=
  let (toSessions, node) :=
    SessionManager.getSessionByUserId site (some model.to_)
  ⟨⟨node, site.redis⟩,
    match toSessions with
    | none => {}
    | some sessions =>
        forEach (fun s => s.writeAndFlush node model)
          sessions⟩

/- The command that carries data. -/
def MsgProcesser.op : CmdType :=
  .websocketData

/- A client that is logged in sent a message. -/
def MsgProcesser.action
    (site : Site ι)
    (_ : LocalSession)
    (model : Model) : Done ι :=
  writeToSessions site model

/- The attributes a channel has for its session. -/
structure ChannelAttrs where
  session : Option LocalSession := none
  active : Option Bool := none
deriving DecidableEq, Repr

namespace BinaryHandler

/-
  Handle a message on a channel; other commands are passed
  on. A channel without a session belongs to a peer.
-/
def channelRead
    (site : Site ι)
    (attrs : ChannelAttrs)
    (model : Model) : Option (Done ι) :=
  if model.getCmd ≠ MsgProcesser.op then
    none
  else
    match attrs.session with
    | none => some (writeToSessions site model)
    | some session =>
        match attrs.active with
        | none => some ⟨site, ⟨[], some .nullPointer⟩⟩
        | some true =>
            some (MsgProcesser.action site session model)
        | some false => some (writeToSessions site model)

end BinaryHandler

/- What a heartbeat handler does: echo, or pass on. -/
structure HeartBeat where
  echo : Bool
  passedOn : Bool
deriving DecidableEq, Repr

/- Heartbeats are sent back, and passed on all the same. -/
def HeartBeatHandler.channelRead
    (msg : Model) : HeartBeat :=
  if msg.getCmd = .websocketHearbeat then
    ⟨true, true⟩
  else
    ⟨false, true⟩

/- Where a message came from. -/
inductive Source where
| client (session : LocalSession)
| peer
deriving DecidableEq, Repr

/- The attributes of a channel, by who is at its end. -/
def Source.attrs : Source → ChannelAttrs
| .client session => ⟨some session, some true⟩
| .peer => {}

/- Whether the first handler passes the message on. -/
def Source.passedOn
    (source : Source)
    (msg : Model) : Bool :=
  match source with
  | .client _ => true
  | .peer =>
      match RemoteNotificationHandler.channelRead msg with
      | .ok handled => handled.passedOn
      | .error _ => false

/-
  Take a message through the pipeline of a client that is
  logged in or of a connected peer. Notifications have their
  own handler.
-/
def Site.receive
    (site : Site ι)
    (source : Source)
    (msg : Model) : Done ι :=
  if source.passedOn msg &&
      (HeartBeatHandler.channelRead msg).passedOn then
    (BinaryHandler.channelRead site source.attrs msg).getD
      ⟨site, {}⟩
  else
    ⟨site, {}⟩

/- Data is written to its receiver wherever it came from. -/
theorem Site.receive_data
    (site : Site ι)
    (source : Source)
    {msg : Model}
    (hData : msg.getCmd = .websocketData) :
    site.receive source msg = writeToSessions site msg := by
  cases source with
  | client session =>
      simp [Site.receive, Source.passedOn, Source.attrs,
        HeartBeatHandler.channelRead,
        BinaryHandler.channelRead, MsgProcesser.op,
        MsgProcesser.action, hData]
  | peer =>
      simp [Site.receive, Source.passedOn, Source.attrs,
        RemoteNotificationHandler.channelRead,
        HeartBeatHandler.channelRead,
        BinaryHandler.channelRead, MsgProcesser.op, hData]

end NettyCluster

------------------------------------------------------------
-- What Is Written
------------------------------------------------------------

namespace NettyCluster

open MessageInfo

variable {ι : Type}

theorem forEach_map
    {α β : Type}
    (f : α → β)
    (write : β → Written ι)
    (xs : List α) :
    forEach write (xs.map f) =
      forEach (fun x => write (f x)) xs := by
  induction xs with
  | nil => rfl
  | cons x xs ih => simp only [List.map_cons, forEach, ih]

/- Writing to a session only looks at the senders. -/
theorem ServerSession.writeAndFlush_congr
    {node node' : Node ι}
    (hSenders : node'.workerMap = node.workerMap)
    (session : ServerSession)
    (pkg : Model) :
    session.writeAndFlush node' pkg =
      session.writeAndFlush node pkg := by
  cases session with
  | localSession s => rfl
  | remoteSession s =>
      simp only [ServerSession.writeAndFlush,
        RemoteSession.writeAndFlush, NodeRouter.route,
        hSenders]

namespace SessionManager

/- What a node writes for a message to some sessions. -/
def writtenFor
    (node : Node ι)
    (records : List SessionNodeCache)
    (msg : Model) : Written ι :=
  forEach
    (fun r =>
      (handle node.sessionMap r).writeAndFlush node msg)
    records

end SessionManager

open SessionManager

/- The handles a node has decide what it writes. -/
theorem writeToSessions_written
    (site : Site ι)
    (msg : Model) :
    (writeToSessions site msg).written =
      writtenFor site.node
        (UserCacheImpl.records site.redis (some msg.to_))
        msg := by
  unfold writeToSessions writtenFor
  rw [getSessionByUserId_eq]
  by_cases hEmpty :
      UserCacheImpl.records site.redis (some msg.to_) = []
  · simp [hEmpty, forEach]
  · simp only [hEmpty, if_false, forEach_map]
    rfl

/- Writing to sessions leaves the records as they are. -/
theorem writeToSessions_redis
    (site : Site ι)
    (msg : Model) :
    (writeToSessions site msg).site.redis = site.redis :=
  rfl

theorem writeToSessions_workerMap
    (site : Site ι)
    (msg : Model) :
    (writeToSessions site msg).site.node.workerMap =
      site.node.workerMap :=
  getSessionByUserId_workerMap site (some msg.to_)

/- Session ids tell records apart. -/
theorem find?_sessionid
    {records : List SessionNodeCache}
    (hNodup : (sids records).Nodup)
    {r : SessionNodeCache}
    (hMem : r ∈ records) :
    records.find? (fun r' => r'.sessionid = r.sessionid) =
      some r := by
  induction records with
  | nil => cases hMem
  | cons x records ih =>
      rw [sids, List.map_cons, List.nodup_cons] at hNodup
      rcases List.mem_cons.mp hMem with rfl | hIn
      · simp
      · have hNe : x.sessionid ≠ r.sessionid := by
          intro hEq
          exact hNodup.1 (hEq ▸ List.mem_map_of_mem hIn)
        simp [hNe, ih hNodup.2 hIn]

/- A node keeps the handles that it looked up. -/
theorem writeToSessions_handle
    (site : Site ι)
    (msg : Model)
    {r : SessionNodeCache}
    (hMem :
      r ∈ UserCacheImpl.records site.redis (some msg.to_)) :
    handle (writeToSessions site msg).site.node.sessionMap
        r =
      handle site.node.sessionMap r := by
  have hLookup :=
    getSessionByUserId_lookup site (some msg.to_) r.sessionid
  change ((getSessionByUserId site
    (some msg.to_)).2.sessionMap.lookup r.sessionid).getD _ =
      _
  rw [hLookup, handle]
  cases hHandle :
      site.node.sessionMap.lookup r.sessionid with
  | some session => rfl
  | none =>
      have hFirst :
          (UserCacheImpl.records site.redis
            (some msg.to_)).find?
              (fun r' => r'.sessionid = r.sessionid) =
            some r :=
        find?_sessionid (UserCacheImpl.nodup_records _ _)
          hMem
      simp [hFirst]

end NettyCluster
