import Android2Mouse.Guarantees.ClientDaemon
import Android2Mouse.Guarantees.Typing
import Android2Mouse.Guarantees.Framing
import Android2Mouse.Guarantees.StickFrame
import Android2Mouse.Guarantees.GraspMode
import Android2Mouse.Guarantees.Descriptor
import Android2Mouse.Guarantees.KeySync
import Android2Mouse.Guarantees.SendString
import Android2Mouse.Guarantees.OwnDescriptor
import Android2Mouse.Guarantees.FrontEnds
import Android2Mouse.Guarantees.FailedRun
import Android2Mouse.Guarantees.MainLoop
import Android2Mouse.Guarantees.Fragments
import Android2Mouse.Guarantees.AsciiChar
import Android2Mouse.Guarantees.PacketSafety
import Android2Mouse.Guarantees.CacheGrowth
import Android2Mouse.Guarantees.RecordHandle
import Android2Mouse.Guarantees.LogBuffer
import Android2Mouse.Guarantees.LogFile
import Android2Mouse.Guarantees.Wheel
import Android2Mouse.Guarantees.Tilt
import Android2Mouse.Guarantees.SdpRegistration
import Android2Mouse.Guarantees.LoggedRun
import Android2Mouse.Guarantees.DeviceClass
import Android2Mouse.Guarantees.AddressText
import Android2Mouse.Guarantees.MouseLines
import Android2Mouse.Guarantees.DaemonRuns
import Android2Mouse.Guarantees.TappedDevice
import Android2Mouse.Guarantees.BmouseBytes
