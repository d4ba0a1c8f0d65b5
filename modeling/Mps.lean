import Mps.Land.Failover.Pool
import Mps.Format.Forward
import Mps.ForkTest.Main
