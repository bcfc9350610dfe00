import CksLoadtest.Client.Walk
import CksLoadtest.Control.Bind
import CksLoadtest.Ctl.Wait
import CksLoadtest.Harness.Indices
import CksLoadtest.Harness.Overflow
import CksLoadtest.Harness.Population
import CksLoadtest.Harness.Process
import CksLoadtest.Harness.Progress
import CksLoadtest.Harness.Ramp
import CksLoadtest.Harness.EndReading
import CksLoadtest.Harness.SignIn
import CksLoadtest.Protocol.Classification
import CksLoadtest.Protocol.Delivery
import CksLoadtest.Protocol.Gauges
import CksLoadtest.Protocol.GiveUps
import CksLoadtest.Protocol.Identity
import CksLoadtest.Protocol.Moves
import CksLoadtest.Protocol.Reassign
import CksLoadtest.Protocol.RefreshFlag
import CksLoadtest.Protocol.Refusals
import CksLoadtest.Protocol.Sends
import CksLoadtest.Protocol.Sequence
import CksLoadtest.Protocol.Snapshots
import CksLoadtest.Protocol.Threads
import CksLoadtest.Protocol.Tokens
import CksLoadtest.Provision.Accounts
import CksLoadtest.Provision.Call
import CksLoadtest.Provision.Entries
import CksLoadtest.Stats.Fleet
import CksLoadtest.Stats.OneMark
import CksLoadtest.Stats.Percentile
import CksLoadtest.Stats.Summary
import CksLoadtest.Stats.Window
import CksLoadtest.Wire.Bundle
import CksLoadtest.Wire.Layout
import CksLoadtest.Wire.Reference
import CksLoadtest.Worker.Guarded
import CksLoadtest.Worker.Pacing
