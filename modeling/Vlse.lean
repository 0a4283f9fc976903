import Vlse.Benchmark.Experiment
import Vlse.Benchmark.PairedRun
import Vlse.Filter.Capacity
import Vlse.Filter.FalsePositive
import Vlse.Filter.FingerprintMass
import Vlse.Filter.LayoutExact
import Vlse.Filter.PaddingSpec
import Vlse.Filter.Refinement
import Vlse.Filter.Reservation
import Vlse.Filter.RoundTrip
import Vlse.Label.Decrypt
import Vlse.Lse.Completion
import Vlse.Lse.Encodings
import Vlse.Oprf.Blinds
import Vlse.Oprf.HashLaw
import Vlse.Oprf.Session
import Vlse.Protocol.Outcomes
import Vlse.Protocol.ResultArray
