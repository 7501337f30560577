import Crocks.Proto.Wire
import Crocks.Proto.Info
import Crocks.Common.Info
import Crocks.Server.Call
import Crocks.Server.BatchCall
import Crocks.Server.WriteCall
import Crocks.Server.Shards
import Crocks.Server.MigrateCall
import Crocks.Server.Node
import Crocks.Server.Donor
import Crocks.Client.ClusterImpl
import Crocks.Common.Coordinator
import Crocks.Server.Cluster
import Crocks.Server.Iterator
import Crocks.Client.Print
import Crocks.Server.Reads
import Crocks.Server.Lifecycle
import Crocks.Server.Handoff
import Crocks.Server.Handoff.Transport
import Crocks.Server.Handoff.Routing
import Crocks.Server.Handoff.Termination
import Crocks.Server.Handoff.Progress
import Crocks.Server.Handoff.Success
