import ChromiumEc.Queue.Chunk
import ChromiumEc.Queue.Peek
import ChromiumEc.MotionSense.Monotone
import ChromiumEc.MotionSense.Tally
import ChromiumEc.MotionSense.Urgent
import ChromiumEc.Charge.Ceilings
import ChromiumEc.Charge.Fresh
import ChromiumEc.Charge.RampLimit
import ChromiumEc.Charge.Delayed
import ChromiumEc.Shmem.Size
import ChromiumEc.Update.UpdateFw
import ChromiumEc.Host.Framing
import ChromiumEc.Base32.Detect
import ChromiumEc.Base32.Buffers
import ChromiumEc.Cbi.Storage
import ChromiumEc.Charger.Shutdown
import ChromiumEc.Charger.Control
import ChromiumEc.Charger.DeepCharge
import ChromiumEc.Keyboard.Independent
import ChromiumEc.Usbc.Prl.Flush
import ChromiumEc.Usbc.Prl.ChunkFrame
import ChromiumEc.Usbc.Prl.Attribution
import ChromiumEc.Usbc.Source.Balance
import ChromiumEc.Usbc.Altmode.Sequence
import ChromiumEc.Usbc.Altmode.Restore
import ChromiumEc.Usbc.Altmode.Entry
import ChromiumEc.Usbc.Hpd.Ec
import ChromiumEc.Usbc.Sm.Machine
import ChromiumEc.Usbc.PdTimer.Next
import ChromiumEc.Rollback.Blank
import ChromiumEc.Console.Transmit
import ChromiumEc.Usbc.Tcpc.Accepted
import ChromiumEc.Cec.Delivery
import ChromiumEc.CortexM.Wakeup
import ChromiumEc.Hooks.OnTime
import ChromiumEc.Timer.Deadlines
import ChromiumEc.EventLog.Interleaved
import ChromiumEc.Mkbp.SafetyNet
import ChromiumEc.Mkbp.Delivery
import ChromiumEc.Usbc.Pe.Requests
import ChromiumEc.Usbc.Pe.Accept
import ChromiumEc.Usbc.Discovery.Response
import ChromiumEc.I2c.Safe
import ChromiumEc.VbootHash.Honest
import ChromiumEc.CortexM.Mutex
import ChromiumEc.Usbc.Dps.Settles
import ChromiumEc.Usbc.DualRole.Request
import ChromiumEc.Hooks.Notify
import ChromiumEc.Straps.FromBits
import ChromiumEc.Strtoi.Strtoi
import ChromiumEc.CortexM.WaitMask
import ChromiumEc.Timer.Usleep
import ChromiumEc.Rwsig.Rwsig
import ChromiumEc.Flash.Status
import ChromiumEc.Flash.Record
import ChromiumEc.Usbc.Dps.Average
import ChromiumEc.Usbc.Discovery.Consume
import ChromiumEc.Usbc.Discovery.Snapshot
import ChromiumEc.Usbc.ApVdm.Response
import ChromiumEc.Thermal.Hysteresis
import ChromiumEc.Vstore.Locks
import ChromiumEc.Console.Refine
import ChromiumEc.Lightbar.Handback
import ChromiumEc.BodyDetection.Confidence
