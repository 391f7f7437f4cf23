import L8Tunnel.Claims.Stale
import L8Tunnel.Claims.PortOrder
import L8Tunnel.Claims.Simulated
import L8Tunnel.Transport.Signed
import L8Tunnel.Auth.BasicCache
import L8Tunnel.Auth.IPLists
import L8Tunnel.Common.Refresh
import L8Tunnel.Common.Convert
import L8Tunnel.Live.Moved
import L8Tunnel.Live.Owner
import L8Tunnel.Live.Reconcile
import L8Tunnel.HttpProxy.Cache
import L8Tunnel.Inspect.Recorder
import L8Tunnel.Oidc.Codes
import L8Tunnel.Edge.Balance
import L8Tunnel.Edge.Failover
import L8Tunnel.Edge.Configured
import L8Tunnel.Edge.Accept
import L8Tunnel.EdgeNode.Reload
import L8Tunnel.EdgeNode.LoadCerts
import L8Tunnel.EdgeConf.Callback
import L8Tunnel.Alerts.Evaluate
import L8Tunnel.Relay.Accounts
import L8Tunnel.Relay.Gateway
import L8Tunnel.Relay.Reannounce
import L8Tunnel.Relay.Convergence
import L8Tunnel.Registrar.Fleet
import L8Tunnel.Registrar.Lockstep
import L8Tunnel.Registrar.Wildcards
import L8Tunnel.Admin.Restart
