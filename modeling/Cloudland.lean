import Cloudland.Sci.Group.History
import Cloudland.Web.Network.Vlans
import Cloudland.Web.Network.AddInterface
import Cloudland.Web.Network.FloatingIps
import Cloudland.Web.Network.SubnetAddresses
import Cloudland.Web.Network.SubnetDelete
import Cloudland.Sci.Membership.Redeploy
import Cloudland.Sci.Membership.AgentIds
import Cloudland.Sci.Membership.BackEndIds
import Cloudland.Sci.Queue
import Cloudland.Sci.Forward
import Cloudland.Sci.Notify
import Cloudland.Core.Branch
import Cloudland.Core.Replies
import Cloudland.Core.Release
import Cloudland.Core.Groups
import Cloudland.Core.Scheduling
import Cloudland.Web.Overlay.Vrrp
import Cloudland.Web.Overlay.Rules
import Cloudland.Web.Account.Updates
import Cloudland.Web.Account.Identity
import Cloudland.Web.Account.Integrity
import Cloudland.Web.Instance.Resources
import Cloudland.Web.Secgroup.SecurityRules
import Cloudland.Web.Secgroup.Requests
import Cloudland.Web.Listing.Isolation
import Cloudland.Web.Listing.Pages
import Cloudland.Web.LoadBalancer.Haproxy
import Cloudland.Sci.Segments
import Cloudland.Sci.Framing
import Cloudland.Sci.Transfer
import Cloudland.Web.Alarm.Anchors
import Cloudland.Web.Volume.Membership
import Cloudland.Web.Volume.Statuses
import Cloudland.Sci.HostFile.Meaning
import Cloudland.Web.Metering.Storage
import Cloudland.Web.Adjust.Links
import Cloudland.Web.Zones
import Cloudland.Web.Rpcs.Command
import Cloudland.Web.Rpcs.Agent
import Cloudland.Cli.CleanImages
import Cloudland.Cli.CleanVolumes
