import Auticuro.Node.GcTiming
import Auticuro.Node.Replay
import Auticuro.Node.Reservations
import Auticuro.Node.Limits
import Auticuro.Node.Decimals
import Auticuro.Node.LifeCycle
import Auticuro.TinyMq.Forwarding
import Auticuro.TinyMq.Consuming
import Auticuro.Compaction.Wallets
import Auticuro.StateMachine.Conservation
import Auticuro.MessageBroker.Timeouts
import Auticuro.Node.Queries
import Auticuro.TinyMq.CompactionSafety
import Auticuro.RocksdbState.KeySpace
import Auticuro.TinyMq.Bootstrap
import Auticuro.TinyMq.LogBytes
import Auticuro.TinyMq.ExactCollection
import Auticuro.TinyMq.TermShortcut
import Auticuro.TinyMq.StreamOrder
import Auticuro.Server.Retries
import Auticuro.TinyMq.Ticks
import Auticuro.TinyMq.Acknowledged
import Auticuro.Gateway.WritesOnce
