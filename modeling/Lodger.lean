import Lodger.Lib.Machine
import Lodger.Lib.Window
import Lodger.Lib.Prog
import Lodger.Lib.DirTree
import Lodger.Lib.Broadcast
import Lodger.Lib.Calendar
import Lodger.Lib.Split
import Lodger.Lib.Except
import Lodger.Lib.Table
import Lodger.Throttle
import Lodger.Throttle.History
import Lodger.Throttle.Lemmas
import Lodger.Throttle.Theorems
import Lodger.Throttle.Ledger
import Lodger.Throttle.FullMap
import Lodger.Db
import Lodger.Db.Lemmas
import Lodger.Db.Text
import Lodger.Db.Lifetime
import Lodger.Auth
import Lodger.Auth.Lemmas
import Lodger.Auth.Revocation
import Lodger.Auth.Identity
import Lodger.Setup
import Lodger.Setup.Lemmas
import Lodger.Setup.Theorems
import Lodger.Tickets
import Lodger.Tickets.Theorems
import Lodger.Xml
import Lodger.Validate
import Lodger.Validate.Lemmas
import Lodger.Xml.Write
import Lodger.Xml.Pool
import Lodger.Xml.Network
import Lodger.Xml.Volume
import Lodger.Xml.Theorems
import Lodger.Creates
import Lodger.Creates.Theorems
import Lodger.Libvirt
import Lodger.Libvirt.Command
import Lodger.Events
import Lodger.Events.Theorems
import Lodger.Cache
import Lodger.Cache.View
import Lodger.Cache.Lemmas
import Lodger.Cache.Sound
import Lodger.Cache.Fresh
import Lodger.Supervisor
import Lodger.Supervisor.Lemmas
import Lodger.Supervisor.Session
import Lodger.Supervisor.Own
import Lodger.Supervisor.Theorems
import Lodger.Ws
import Lodger.Ws.Lemmas
import Lodger.Ws.Theorems
import Lodger.Delete
import Lodger.Jobs
import Lodger.Jobs.Lemmas
import Lodger.Jobs.Rules
import Lodger.Jobs.Specs
import Lodger.Jobs.Removal
import Lodger.Jobs.Theorems
import Lodger.Delete.Lemmas
import Lodger.Delete.Paths
import Lodger.Delete.Scan
import Lodger.Delete.Loop
import Lodger.Delete.Report
import Lodger.Delete.Outcome
import Lodger.Delete.Theorems
import Lodger.Delete.Volumes
import Lodger.Delete.Refusal
import Lodger.Pools
import Lodger.Pools.Theorems
import Lodger.ClientIp
import Lodger.ClientIp.Theorems
import Lodger.Throttle.Accounts
import Lodger.Throttle.Retry
import Lodger.Throttle.Invisible
import Lodger.Xml.Overlap
import Lodger.Busy
import Lodger.Delete.Race
import Lodger.Delete.Settled
import Lodger.Delete.Closed
import Lodger.Jobs.CleanUp
import Lodger.Jobs.RemovePool
import Lodger.Lib.Fold
import Lodger.Lib.Parties
import Lodger.Validate.Paths
import Lodger.Validate.Subnets
import Lodger.Xml.Folders
import Lodger.Xml.Addresses
import Lodger.Xml.Clash
import Lodger.Stats.Counters
import Lodger.Stats.Hub
import Lodger.Stats.Interest
import Lodger.Db.Migrations
import Lodger.Config
import Lodger.Install
import Lodger.Install.Lemmas
import Lodger.Install.Complete
import Lodger.Install.Begun
import Lodger.Install.Stages
import Lodger.Install.Theorems
import Lodger.Lib.Search
import Lodger.Lib.Loop
import Lodger.Security
import Lodger.Security.Lemmas
import Lodger.Security.Theorems
import Lodger.Lib.Monitor
import Lodger.Http
import Lodger.Http.Cookies
import Lodger.Audit
import Lodger.Audit.Theorems
import Lodger.Server
import Lodger.Server.Handlers
import Lodger.Server.Router
import Lodger.Server.Watch
import Lodger.Server.Safe
import Lodger.Server.Serve
import Lodger.Server.Theorems
