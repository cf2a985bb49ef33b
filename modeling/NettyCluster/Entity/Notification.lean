import NettyCluster.Entity.UserCache
import NettyCluster.Message.MessageInfo

/-
  The notifications between nodes: a session went online or
  offline, or a peer connection was established.

  A notification is sent as the JSON text of its type and
  its data, in the body of a message. What the data is read
  as is up to the reader.

  Main declarations:
    * `Notification`
    * `Notification.toJson`, `Notification.fromJson`
    * `Notification.read_toJson`
    * `NotificationMsgBuilder.buildNotification`
-/

------------------------------------------------------------
-- Notifications
------------------------------------------------------------

namespace NettyCluster

/- The classes a notification's data can have. -/
inductive DataType where
| contentWrapper
| nodeCacheWrapper
| wsNode
deriving DecidableEq, Repr

/- The data of a notification, by its class. -/
inductive Data where
| contentWrapper (content : Option String)
| nodeCacheWrapper
    (sessionNodeCache : Option SessionNodeCache)
| wsNode (node : WsNode)
deriving DecidableEq, Repr

namespace Data

def toJson : Data → Json
| .contentWrapper content => .obj (nullable "content" content)
| .nodeCacheWrapper none => .obj []
| .nodeCacheWrapper (some s) =>
    .obj [("sessionNodeCache", s.toJson)]
| .wsNode node => node.toJson

/- Read data as a class; members it lacks are ignored. -/
def fromJson : DataType → Json → Option Data
| .contentWrapper, .obj fields => do
    let content ← getString (.obj fields) "content"
    some (.contentWrapper content)
| .nodeCacheWrapper, .obj fields =>
    match (Json.obj fields).get? "sessionNodeCache" with
    | none => some (.nodeCacheWrapper none)
    | some .null => some (.nodeCacheWrapper none)
    | some j => do
        let s ← SessionNodeCache.fromJson j
        some (.nodeCacheWrapper (some s))
| .wsNode, .obj fields => do
    let node ← WsNode.fromJson (.obj fields)
    some (.wsNode node)
| _, _ => none

theorem fromJson_wsNode (n : WsNode) :
    fromJson .wsNode (Data.wsNode n).toJson =
      some (.wsNode n) := by
  change (WsNode.fromJson n.toJson).bind _ = _
  rw [WsNode.fromJson_toJson]
  rfl

theorem toJson_object (data : Data) :
    ∃ fields, data.toJson = .obj fields := by
  rcases data with content | (_ | s) | node <;>
    exact ⟨_, rfl⟩

end Data

/- A notification: a type and, unless null, its data. -/
structure Notification where
  type : Int := 0
  data : Option Data := none
deriving DecidableEq, Repr

namespace Notification

def SESSION_ON : Int := 10

def SESSION_OFF : Int := 20

def CONNECT_FINISHED : Int := 30

/- Wrap a session id; the type is set later. -/
def wrapContent (content : Option String) : Notification :=
  { data := some (.contentWrapper content) }

/- The session id, if the data is of that class. -/
def getWrapContent (n : Notification) : Option String :=
  match n.data with
  | some (.contentWrapper content) => content
  | _ => none

/- Wrap a session record; the type is set later. -/
def wrapNode
    (sessionNodeCache : SessionNodeCache) : Notification :=
  { data := some (.nodeCacheWrapper sessionNodeCache) }

/- The session record, if the data is of that class. -/
def getWrapNode
    (n : Notification) : Option SessionNodeCache :=
  match n.data with
  | some (.nodeCacheWrapper s) => s
  | _ => none

def setType
    (n : Notification)
    (type : Int) : Notification :=
  { n with type := type }

def toJson (n : Notification) : Json :=
  .obj (("type", .num n.type) ::
    (n.data.map fun d => ("data", d.toJson)).toList)

/- Read a notification with data of a declared class. -/
def fromJson (type : DataType) : Json → Option Notification
| .obj fields => do
    let kind ← getNum (.obj fields) "type" 0
    match (Json.obj fields).get? "data" with
    | none => some ⟨kind, none⟩
    | some .null => some ⟨kind, none⟩
    | some j => do
        let data ← Data.fromJson type j
        some ⟨kind, some data⟩
| _ => none

/-
  Reading the JSON of a notification keeps its type and
  reads its data as the declared class.
-/
theorem fromJson_toJson
    (type : DataType)
    (kind : Int)
    (data : Data) :
    fromJson type (toJson ⟨kind, some data⟩) =
      (Data.fromJson type data.toJson).map
        fun d => ⟨kind, some d⟩ := by
  rcases data.toJson_object with ⟨fields, hObject⟩
  simp [toJson, fromJson, getNum, Json.get?, List.lookup_cons,
    hObject, Option.bind_eq_bind, Option.map_eq_bind]

end Notification

end NettyCluster

------------------------------------------------------------
-- Messages
------------------------------------------------------------

namespace NettyCluster

open MessageInfo

/- The text of a notification. -/
def Notification.text (n : Notification) : String :=
  n.toJson.text

/- The message that carries a notification. -/
def NotificationMsgBuilder.body
    (content : String)
    (time : String) : MessageBody :=
  { content_ := content, type_ := 0, time_ := time }

def NotificationMsgBuilder.buildNotification
    (content : String)
    (time : String) : Model :=
  { cmd_ := CmdType.messageNotification.number,
    content_ :=
      (NotificationMsgBuilder.body content time).toByteArray }

end NettyCluster
