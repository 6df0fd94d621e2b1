import Windrunner.GuildBank.Bounds
import Windrunner.GuildBank.Sync
import Windrunner.GuildBank.Money
import Windrunner.Loot.Obtain
import Windrunner.Loot.View
import Windrunner.Loot.QuestDrop
import Windrunner.Mail.Conserve
import Windrunner.Mail.Cap
import Windrunner.Auction.Browse
import Windrunner.Auction.Settle
import Windrunner.Group.Persist
import Windrunner.Guild.Listed
import Windrunner.Guild.Privilege
import Windrunner.Guild.Restart
import Windrunner.Guild.EventLog
import Windrunner.Battleground.Presence
import Windrunner.Battleground.Fill
import Windrunner.Battleground.Access
import Windrunner.Database.Shutdown
import Windrunner.Shop.Settled
import Windrunner.Threat.Select
import Windrunner.Threat.Taunt
import Windrunner.RealmMerge.Unique
import Windrunner.RealmMerge.Names
import Windrunner.Pool.Respawn
import Windrunner.Pool.Load
import Windrunner.Chat.Ownership
import Windrunner.Instances.Pack
import Windrunner.Reputation.Kept
import Windrunner.Shared.AuthCrypt
import Windrunner.Transmog.Frame
import Windrunner.Honor.Totals
import Windrunner.Honor.Merchant
import Windrunner.Instances.Resets
import Windrunner.Instances.ResetTimes
import Windrunner.GameEvents.NextCheck
import Windrunner.Headless.Logins
import Windrunner.Lft.InStep
import Windrunner.Inventory.Complete
import Windrunner.GuildBank.Rearrange
import Windrunner.Lfg.Roles
import Windrunner.Lfg.Progress
import Windrunner.Objects.Delivered
import Windrunner.PacketBroadcast.Received
import Windrunner.Database.Format
import Windrunner.Database.Callbacks
import Windrunner.Database.Connections
import Windrunner.PlayerDump.Fields
import Windrunner.Database.Split
import Windrunner.Database.Prepared
import Windrunner.Lft.Search
import Windrunner.Lft.Signups
