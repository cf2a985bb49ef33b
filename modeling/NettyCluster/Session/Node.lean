import Mathlib.Data.List.AList
import NettyCluster.Handler.RemoteNotificationHandler
import NettyCluster.Session.Redis

/-
  A node: its session handles, its senders to the peers, and
  what it writes.

  A session handle is the session itself on the node whose
  client it is, and a record elsewhere. What is written is
  kept in order, up to the first exception.

  Main declarations:
    * `ServerSession`
    * `PeerSender`
    * `Node`
    * `Written`, `forEach`
    * `ServerSession.writeAndFlush`
    * `NodeRouter.sendNotification`
-/

------------------------------------------------------------
-- Sessions and Senders
------------------------------------------------------------

namespace NettyCluster

open MessageInfo

/- A client's channel. -/
structure Channel where
  id : Nat
  isWritable : Bool := true
deriving DecidableEq, Repr

/-
  The session of a client on its own node. The user is null
  until the client has logged in.
-/
structure LocalSession where
  channel : Channel
  userid : Option String
  sessionId : String
deriving DecidableEq, Repr

/- The session of a client on another node. -/
structure RemoteSession where
  sessionNodeCache : SessionNodeCache
deriving DecidableEq, Repr

/- A session handle. -/
inductive ServerSession where
| localSession (session : LocalSession)
| remoteSession (session : RemoteSession)
deriving DecidableEq, Repr

namespace ServerSession

def getSessionId : ServerSession → String
| .localSession s => s.sessionId
| .remoteSession s => s.sessionNodeCache.sessionid

def getUserIdValue : ServerSession → Option String
| .localSession s => s.userid
| .remoteSession s => s.sessionNodeCache.userid

/- The handles that are sessions of the node itself. -/
def isLocal : ServerSession → Bool
| .localSession _ => true
| .remoteSession _ => false

end ServerSession

/-
  The sender to a peer: the node it was made for, whether it
  is connected, and the node at the other end.
-/
structure PeerSender (ι : Type) where
  wsNode : WsNode
  connectFlag : Bool
  channel : Option ι
deriving DecidableEq, Repr

/- The session handles of a node by session id. -/
abbrev SessionMap :=
  AList fun _ : String => ServerSession

/-
  A node: its registered data, its session handles and its
  senders by node id.
-/
structure Node (ι : Type) where
  wsNode : WsNode
  sessionMap : SessionMap
  workerMap : AList fun _ : Int => PeerSender ι
deriving DecidableEq

namespace Node

variable {ι : Type}

/- A node that has just registered. -/
def new (wsNode : WsNode) : Node ι :=
  ⟨wsNode, ∅, ∅⟩

def setSessionMap
    (node : Node ι)
    (sessionMap : SessionMap) : Node ι :=
  { node with sessionMap := sessionMap }

/-
  One session more. The write to the registry that follows
  does not change the node, whether it fails or not.
-/
def incBalance (node : Node ι) : Node ι :=
  { node with wsNode := node.wsNode.incrementBalance }

/- One session less. -/
def decrBalance (node : Node ι) : Node ι :=
  { node with wsNode := node.wsNode.decrementBalance }

@[simp] theorem setSessionMap_wsNode
    (node : Node ι)
    (sessionMap : SessionMap) :
    (node.setSessionMap sessionMap).wsNode = node.wsNode :=
  rfl

@[simp] theorem setSessionMap_sessionMap
    (node : Node ι)
    (sessionMap : SessionMap) :
    (node.setSessionMap sessionMap).sessionMap =
      sessionMap :=
  rfl

@[simp] theorem setSessionMap_workerMap
    (node : Node ι)
    (sessionMap : SessionMap) :
    (node.setSessionMap sessionMap).workerMap =
      node.workerMap :=
  rfl

@[simp] theorem setSessionMap_self (node : Node ι) :
    node.setSessionMap node.sessionMap = node :=
  rfl

@[simp] theorem incBalance_sessionMap (node : Node ι) :
    node.incBalance.sessionMap = node.sessionMap :=
  rfl

@[simp] theorem incBalance_id (node : Node ι) :
    node.incBalance.wsNode.id = node.wsNode.id :=
  rfl

@[simp] theorem incBalance_balance (node : Node ι) :
    node.incBalance.wsNode.balance =
      node.wsNode.balance + 1 :=
  rfl

@[simp] theorem decrBalance_sessionMap (node : Node ι) :
    node.decrBalance.sessionMap = node.sessionMap :=
  rfl

@[simp] theorem decrBalance_id (node : Node ι) :
    node.decrBalance.wsNode.id = node.wsNode.id :=
  rfl

@[simp] theorem decrBalance_balance (node : Node ι) :
    node.decrBalance.wsNode.balance =
      node.wsNode.balance - 1 :=
  rfl

end Node

end NettyCluster

------------------------------------------------------------
-- Writing
------------------------------------------------------------

namespace NettyCluster

open MessageInfo

/-
  What a node does to the outside: write to a client, call
  the sender of a peer, or close a client's channel.
-/
inductive Effect (ι : Type) where
| write (session : LocalSession) (pkg : Model)
| send (sender : PeerSender ι) (pkg : Model)
| close (channel : Channel)
deriving DecidableEq

/- The effects of a call, and what it threw after them. -/
structure Written (ι : Type) where
  effects : List (Effect ι) := []
  thrown : Option Thrown := none
deriving DecidableEq

variable {ι : Type}

/- Do one thing and, unless it throws, another. -/
def Written.andThen
    (w next : Written ι) : Written ι :=
  match w.thrown with
  | some _ => w
  | none => ⟨w.effects ++ next.effects, next.thrown⟩

/- Do something for each element until it throws. -/
def forEach
    {α : Type}
    (write : α → Written ι) : List α → Written ι
| [] => {}
| x :: xs => (write x).andThen (forEach write xs)

namespace PeerSender

/-
  Send to a peer. Without a connection nothing happens; with
  the flag set and no channel the call fails.
-/
def writeAndFlush
    (sender : PeerSender ι)
    (pkg : Model) : Written ι :=
  if sender.connectFlag = false then
    ⟨[.send sender pkg], none⟩
  else
    match sender.channel with
    | none => ⟨[.send sender pkg], some .nullPointer⟩
    | some _ => ⟨[.send sender pkg], none⟩

/- Where a call of the sender sends to. -/
def reaches (sender : PeerSender ι) : Option ι :=
  if sender.connectFlag then sender.channel else none

end PeerSender

namespace NodeRouter

/- The sender to a node. -/
def route
    (node : Node ι)
    (nodeId : Int) : Option (PeerSender ι) :=
  node.workerMap.lookup nodeId

/-
  Send a notification to every peer but the node itself. The
  clock gives the time that goes into each message.
-/
def sendNotification
    (node : Node ι)
    (content : String)
    (clock : Int → String) : Written ι :=
  forEach
    (fun key =>
      if key = node.wsNode.id then
        {}
      else
        match node.workerMap.lookup key with
        | none => ⟨[], some .nullPointer⟩
        | some peerSender =>
            peerSender.writeAndFlush
              (NotificationMsgBuilder.buildNotification
                content (clock key)))
    node.workerMap.keys

end NodeRouter

/- Write to a client; a full channel drops the message. -/
def LocalSession.writeAndFlush
    (session : LocalSession)
    (pkg : Model) : Written ι :=
  if session.channel.isWritable then
    ⟨[.write session pkg], none⟩
  else {}

/- Write to a session on another node through its sender. -/
def RemoteSession.writeAndFlush
    (session : RemoteSession)
    (node : Node ι)
    (pkg : Model) : Written ι :=
  match NodeRouter.route node
      session.sessionNodeCache.wsNode.id with
  | none => {}
  | some sender => sender.writeAndFlush pkg

/- Write to a session, wherever it is. -/
def ServerSession.writeAndFlush
    (session : ServerSession)
    (node : Node ι)
    (pkg : Model) : Written ι :=
  match session with
  | .localSession s => s.writeAndFlush pkg
  | .remoteSession s => s.writeAndFlush node pkg

end NettyCluster
