import NettyCluster.Lib.Json
import NettyCluster.Codec.FailStop
import NettyCluster.Codec.FrameCodec
import NettyCluster.Codec.HeapBuffer
import NettyCluster.Server.Broadcast
import NettyCluster.Server.Greeting
import NettyCluster.Server.NettyWorker
import NettyCluster.Server.NodePath
import NettyCluster.Server.PeerSender
import NettyCluster.Server.ProtocolDispatcher
import NettyCluster.Server.SenderTable
import NettyCluster.Server.SharedNode
import NettyCluster.Server.StartUp
import NettyCluster.Server.ThreadUtil
import NettyCluster.Handler.ClientChannel
import NettyCluster.Handler.DataChannel
import NettyCluster.Handler.HttpHandler
import NettyCluster.Handler.PeerLink
import NettyCluster.Session.CloseSession
import NettyCluster.Client.Shown
import NettyCluster.Client.IdlePage
import NettyCluster.Handler.IdleLink
import NettyCluster.Session.ExactlyOnce
import NettyCluster.Session.Expiry
import NettyCluster.Session.FailingRedis
import NettyCluster.Session.LocalHandles
import NettyCluster.Session.LoginPairing
import NettyCluster.Session.LookupRace
import NettyCluster.Session.RedisHelper
import NettyCluster.Session.RedisServer
import NettyCluster.Session.UserRecord
