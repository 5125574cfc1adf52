import Mowgli.Params.StoreOwner
import Mowgli.Params.StoreBoot
import Mowgli.Actuation.LinkRearm
import Mowgli.Actuation.BladeAuthority
import Mowgli.Actuation.BladeReversal
import Mowgli.Actuation.EmergencyClear
import Mowgli.Actuation.DriveRearm
import Mowgli.Usb.Queue
import Mowgli.Fleet.Composition
import Mowgli.Schedule.Firing
import Mowgli.Fusion.Rebase
import Mowgli.Fusion.Generations
import Mowgli.Fleet.Refresh
import Mowgli.Grid.Picture
import Mowgli.Params.LogScan
import Mowgli.Wire.Canonical
import Mowgli.Odometry.Legacy
import Mowgli.Wire.ErrorDetection
import Mowgli.Actuation.EmergencyTrips
import Mowgli.Bridge.BladeIntent
import Mowgli.OpenMower.Line
import Mowgli.Transit.Legs
import Mowgli.Foxglove.Connections
import Mowgli.Fleet.Assignment
import Mowgli.Coverage.UnitResume
import Mowgli.Coverage.DigSkip
import Mowgli.Odometry.WheelTicks
import Mowgli.Map.Covered
import Mowgli.OpenMower.VescDelivery
import Mowgli.Map.LoadAtomic
import Mowgli.Foxglove.CdrRoundTrip
import Mowgli.Foxglove.Resolution
import Mowgli.Behavior.LocalizationHealth
import Mowgli.Ftc.OffsetLattice
import Mowgli.Ftc.TurnFallback
import Mowgli.Transit.Connect
import Mowgli.Transit.RasterExact
import Mowgli.Transit.CostExact
import Mowgli.Transit.SegmentExact
import Mowgli.Gui.Replay
import Mowgli.Foxglove.Answers
import Mowgli.Nav.Driven
import Mowgli.Map.RoundTrip
import Mowgli.Gui.BoundedQueue
import Mowgli.Gui.SessionsAgree
import Mowgli.Obstacles.Dbscan
import Mowgli.Gui.CleanOutline
import Mowgli.Dig.OneStrike
import Mowgli.OpenMower.Telescope
import Mowgli.Blackbox.Retention
import Mowgli.Obstacles.Faithful
import Mowgli.Blackbox.Closing
import Mowgli.Gui.MapSaved
import Mowgli.Updater.Retention
