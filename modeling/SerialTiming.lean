import SerialTiming.Laws.Records
import SerialTiming.Laws.SendGate
import SerialTiming.Laws.StartStop
import SerialTiming.Laws.Announcements
import SerialTiming.Laws.Sampling
import SerialTiming.Laws.Isolation
import SerialTiming.Laws.LaneOrder
import SerialTiming.Laws.LaneMessages
import SerialTiming.Laws.Texts
import SerialTiming.Laws.Delivery
import SerialTiming.Laws.Repeater
import SerialTiming.Laws.Handles
import SerialTiming.Laws.Publishing
import SerialTiming.Laws.Ports
import SerialTiming.Laws.CommandLine
import SerialTiming.Laws.Restart
import SerialTiming.Laws.Transport
import SerialTiming.Laws.LostPorts
import SerialTiming.Laws.Options
import SerialTiming.Laws.Publications
