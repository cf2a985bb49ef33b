import NettyCluster.Entity.Notification

/-
  How a node handles the notifications of its peers.

  The handler reads every notification as one that wraps a
  content, before it looks at the type. What it asks of the
  session manager, the pipeline and the channel is returned
  as data, unless it throws.

  Main declarations:
    * `RemoteNotificationHandler.channelRead`
    * `Payload`, `Payload.ActedOn`
    * `RemoteNotificationHandler.actedOn_iff`
-/

------------------------------------------------------------
-- The Handler
------------------------------------------------------------

namespace NettyCluster

open MessageInfo

/- What a handler can throw. -/
inductive Thrown where
| nullPointer
| jsonSyntax
| invalidProtocolBuffer
deriving DecidableEq, Repr

namespace RemoteNotificationHandler

/- The calls on the session manager. -/
inductive Call where
| addRemoteSession (sessionNodeCache : SessionNodeCache)
| removeRemoteSession (sessionId : String)
deriving DecidableEq, Repr

/- The handlers added at the end of a peer's pipeline. -/
inductive Added where
| heartBeatHandler
| binaryHandler
deriving DecidableEq, Repr

/-
  What handling a message comes to: calls on the session
  manager, handlers added to the pipeline, the attribute set
  on the channel, and whether the message is passed on.
-/
structure Handled where
  calls : List Call := []
  addLast : List Added := []
  channelName : Option String := none
  passedOn : Bool := false
deriving DecidableEq, Repr

/-
  Read a notification whose data is of a declared class. The
  text of null is read as null, which fails on first use.
-/
def jsonToPojo
    (json : String)
    (type : DataType) : Except Thrown Notification :=
  if json = "" then
    .error .nullPointer
  else
    match Json.read json with
    | none => .error .jsonSyntax
    | some .null => .error .nullPointer
    | some j =>
        match Notification.fromJson type j with
        | none => .error .jsonSyntax
        | some notification => .ok notification

/- A session of the peer went offline. -/
def handleSessionOff
    (notification : Notification) :
    Except Thrown (List Call) :=
  if notification.type = Notification.SESSION_OFF then
    match notification.getWrapContent with
    | none => .error .nullPointer
    | some sessionid => .ok [.removeRemoteSession sessionid]
  else
    .ok []

/- A session of the peer went online; its id is logged. -/
def handleSessionOn
    (notification : Notification) :
    Except Thrown (List Call) :=
  if notification.type = Notification.SESSION_ON then
    match notification.getWrapNode with
    | none => .error .nullPointer
    | some s => .ok [.addRemoteSession s]
  else
    .ok []

/-
  The peer connection is established: the text is read once
  more, with the data of a node.
-/
def handleConnectFinished
    (notification : Notification)
    (json : String) :
    Except Thrown (Option String) :=
  if notification.type = Notification.CONNECT_FINISHED then do
    let nodeInfo ← jsonToPojo json .wsNode
    .ok (some nodeInfo.text)
  else
    .ok none

/- Handle the text of a notification. -/
def handleNotification
    (json : String) : Except Thrown Handled := do
  let notification ← jsonToPojo json .contentWrapper
  let off ← handleSessionOff notification
  let on ← handleSessionOn notification
  let name ← handleConnectFinished notification json
  .ok
    { calls := off ++ on,
      addLast :=
        if name.isSome then
          [.heartBeatHandler, .binaryHandler]
        else [],
      channelName := name }

/- Handle a message received from a peer. -/
def channelRead (msg : Model) : Except Thrown Handled :=
  if msg.getCmd ≠ .messageNotification then
    .ok { passedOn := true }
  else
    match MessageBody.parseFrom msg.content_ with
    | none => .error .invalidProtocolBuffer
    | some messageBody =>
        handleNotification messageBody.content_

end RemoteNotificationHandler

end NettyCluster

------------------------------------------------------------
-- Sender and Receiver
------------------------------------------------------------

namespace NettyCluster

open MessageInfo
open RemoteNotificationHandler

/- What a node notifies its peers of. -/
inductive Payload where
| sessionOn (s : SessionNodeCache)
| sessionOff (sessionId : String)
| connectFinished (n : WsNode)
deriving DecidableEq, Repr

namespace Payload

/- The notification a node builds. -/
def notification : Payload → Notification
| .sessionOn s =>
    (Notification.wrapNode s).setType
      Notification.SESSION_ON
| .sessionOff sid =>
    (Notification.wrapContent sid).setType
      Notification.SESSION_OFF
| .connectFinished n =>
    { type := Notification.CONNECT_FINISHED,
      data := some (.wsNode n) }

/- The message it sends. -/
def message
    (p : Payload)
    (time : String) : Model :=
  NotificationMsgBuilder.buildNotification
    p.notification.text time

/-
  The receiver acted on what was wrapped: it called the
  session manager with it, or stored it on the channel.
-/
def ActedOn
    (result : Except Thrown Handled) : Payload → Prop
| .sessionOn s =>
    result = .ok { calls := [.addRemoteSession s] }
| .sessionOff sid =>
    result = .ok { calls := [.removeRemoteSession sid] }
| .connectFinished n =>
    result = .ok
      { addLast := [.heartBeatHandler, .binaryHandler],
        channelName :=
          some (Payload.connectFinished n).notification.text }

/- The payloads that announce a session. -/
def isSessionOn : Payload → Bool
| .sessionOn _ => true
| _ => false

end Payload

namespace RemoteNotificationHandler

/- The text of a notification is read by its JSON. -/
theorem jsonToPojo_text
    (n : Notification)
    (type : DataType) :
    jsonToPojo n.text type =
      match Notification.fromJson type n.toJson with
      | none => .error .jsonSyntax
      | some notification => .ok notification := by
  have hRead : Json.read n.text = some n.toJson :=
    Json.read_text n.toJson
  have hText : n.text ≠ "" := by
    intro hEmpty
    rw [hEmpty] at hRead
    have hNone : Json.read "" = none := by decide
    rw [hNone] at hRead
    simp at hRead
  rw [jsonToPojo, if_neg hText, hRead]
  rfl

/- A notification's message is handled by its text. -/
theorem channelRead_message
    (p : Payload)
    (time : String)
    (hLength :
      (NotificationMsgBuilder.body p.notification.text
        time).toByteArray.length < 2 ^ 31) :
    channelRead (p.message time) =
      handleNotification p.notification.text := by
  have hParse := MessageBody.parseFrom_toByteArray hLength
  have hCmd :
      (p.message time).getCmd = .messageNotification :=
    rfl
  rw [channelRead, if_neg (by simp [hCmd]),
    Payload.message,
    NotificationMsgBuilder.buildNotification]
  simp only [hParse]
  rfl

/- A session announced is read as an empty content. -/
theorem handleNotification_sessionOn
    (s : SessionNodeCache) :
    handleNotification (Payload.sessionOn s).notification.text
      = .error .nullPointer := by
  rw [handleNotification, jsonToPojo_text]
  rfl

theorem handleNotification_sessionOff
    (sid : String) :
    handleNotification
        (Payload.sessionOff sid).notification.text =
      .ok { calls := [.removeRemoteSession sid] } := by
  rw [handleNotification, jsonToPojo_text]
  rfl

theorem handleNotification_connectFinished
    (n : WsNode) :
    handleNotification
        (Payload.connectFinished n).notification.text =
      .ok
        { addLast := [.heartBeatHandler, .binaryHandler],
          channelName := some
            (Payload.connectFinished n).notification.text
        } := by
  have hNode :
      handleConnectFinished
          ⟨Notification.CONNECT_FINISHED,
            some (.contentWrapper none)⟩
          (Payload.connectFinished n).notification.text =
        .ok (some
          (Payload.connectFinished n).notification.text) := by
    have hSelf :
        Notification.fromJson .wsNode
            (Payload.connectFinished n).notification.toJson =
          some (Payload.connectFinished n).notification := by
      rw [Payload.notification, Notification.fromJson_toJson,
        Data.fromJson_wsNode]
      rfl
    rw [handleConnectFinished, if_pos rfl, jsonToPojo_text,
      hSelf]
    rfl
  have hRead :
      jsonToPojo (Payload.connectFinished n).notification.text
          .contentWrapper =
        .ok ⟨Notification.CONNECT_FINISHED,
          some (.contentWrapper none)⟩ := by
    rw [jsonToPojo_text]
    rfl
  rw [handleNotification, hRead]
  change (handleConnectFinished _ _).bind _ = _
  rw [hNode]
  rfl

/-
  A notification is handled as it was meant exactly when it
  does not announce a session: those are read as a content,
  which has no session record.
-/
theorem actedOn_iff
    (p : Payload)
    (time : String)
    (hLength :
      (NotificationMsgBuilder.body p.notification.text
        time).toByteArray.length < 2 ^ 31) :
    p.ActedOn (channelRead (p.message time)) ↔
      p.isSessionOn = false := by
  rw [channelRead_message p time hLength]
  cases p with
  | sessionOn s =>
      rw [handleNotification_sessionOn]
      simp [Payload.ActedOn, Payload.isSessionOn]
  | sessionOff sid =>
      simp [handleNotification_sessionOff, Payload.ActedOn,
        Payload.isSessionOn]
  | connectFinished n =>
      simp [handleNotification_connectFinished,
        Payload.ActedOn, Payload.isSessionOn]

/- A session that went offline is removed. -/
theorem actedOn_sessionOff_a :
    (Payload.sessionOff "a").ActedOn
      (channelRead
        ((Payload.sessionOff "a").message "0")) :=
  (actedOn_iff (.sessionOff "a") "0" (by decide)).mpr rfl

/- A session that went online is not learned. -/
theorem sessionOn_not_actedOn :
    ¬ ∀ (p : Payload) (time : String),
      (NotificationMsgBuilder.body p.notification.text
        time).toByteArray.length < 2 ^ 31 →
      p.ActedOn (channelRead (p.message time)) := by
  intro hAll
  have hLength :
      (NotificationMsgBuilder.body
          (Payload.sessionOn ⟨some "u", "a", {}⟩).notification.text
          "0").toByteArray.length < 2 ^ 31 := by
    decide +kernel
  have hActed :=
    hAll (.sessionOn ⟨some "u", "a", {}⟩) "0" hLength
  rw [channelRead_message _ _ hLength,
    handleNotification_sessionOn] at hActed
  simp [Payload.ActedOn] at hActed

end RemoteNotificationHandler

end NettyCluster
