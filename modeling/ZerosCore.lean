import ZerosCore.Guild.Authority
import ZerosCore.Auction.Money
import ZerosCore.Auction.Items
import ZerosCore.Mails.Guards
import ZerosCore.Loots.Once
import ZerosCore.Instances.Ids
import ZerosCore.Events.OneEnd
import ZerosCore.Instances.Binds
import ZerosCore.Server.SessionQueue
import ZerosCore.Server.InputFrames
import ZerosCore.Server.OutputStream
import ZerosCore.Auth.Segmentation
import ZerosCore.Auth.Authentic
import ZerosCore.Guild.Limits
import ZerosCore.Guild.BankMoves
import ZerosCore.Player.CurrencyCaps
import ZerosCore.Events.Reversal
import ZerosCore.Movement.Reentrant
import ZerosCore.Tools.RoundTrip
import ZerosCore.Chat.Membership
import ZerosCore.Calendar.Authority
import ZerosCore.Server.Admission
import ZerosCore.Maps.Phases
import ZerosCore.Battlegrounds.ArenaRecord
import ZerosCore.Vehicles.Seats
import ZerosCore.Groups.Leadership
import ZerosCore.Battlegrounds.AlteracNodes
import ZerosCore.Battlegrounds.ArathiRuns
import ZerosCore.Battlegrounds.StormRuns
import ZerosCore.Battlegrounds.GulchFlags
import ZerosCore.Groups.Subgroups
import ZerosCore.Battlefields.WarRoster
import ZerosCore.Groups.GroupIds
import ZerosCore.Pools.Nesting
import ZerosCore.Pools.QuestPools
import ZerosCore.Battlegrounds.CrossFaction
import ZerosCore.Groups.RollEnds
import ZerosCore.Lfg.Conservation
import ZerosCore.Lfg.Notification
import ZerosCore.Loots.Duplicates
import ZerosCore.Combat.ThreatOrder
import ZerosCore.Player.Buyback
import ZerosCore.Player.VoidStorage
import ZerosCore.Auction.Selling
import ZerosCore.Movement.Codec
import ZerosCore.Lfg.Cache
import ZerosCore.Tools.LineFields
import ZerosCore.Events.EventTimer
import ZerosCore.Guild.Experience
import ZerosCore.Battlegrounds.ArenaTeams
import ZerosCore.Guild.Challenges
import ZerosCore.Instances.ResetTimes
import ZerosCore.Conditions.Lists
import ZerosCore.Spells.Groups
import ZerosCore.Spells.Chains
import ZerosCore.Guild.Finder
import ZerosCore.Tools.WideStrings
import ZerosCore.Battlegrounds.WaitTimes
import ZerosCore.Tools.TimeStrings
import ZerosCore.Packets.PutBits
import ZerosCore.Packets.PackedTime
import ZerosCore.Battlefields.CapturePoint
import ZerosCore.Guild.EventLog
import ZerosCore.Player.VendorStock
import ZerosCore.Battlefields.Graveyards
import ZerosCore.Battlegrounds.BattlegroundMgr
