import OpcuaServer.Config.Snapshots
import OpcuaServer.Supervisor.ChildOwnership
import OpcuaServer.Supervisor.ConfigJsonSafety
import OpcuaServer.Supervisor.ConfigRequests
import OpcuaServer.Supervisor.ResponseBodies
import OpcuaServer.Supervisor.StopStatus
import OpcuaServer.Supervisor.StopTolerance
import OpcuaServer.Supervisor.WindowsOwnership
import OpcuaServer.Supervisor.SupervisorExit
import OpcuaServer.Supervisor.StopAssertion
import OpcuaServer.Supervisor.Utf8Agreement
import OpcuaServer.Supervisor.LaunchSignals
import OpcuaServer.Daemon.DaemonStops
import OpcuaServer.Supervisor.Linearizability
import OpcuaServer.Config.SqliteApiRuns
