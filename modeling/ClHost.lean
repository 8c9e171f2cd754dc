import ClHost.Proofs.Array.Offsets
import ClHost.Proofs.Array.Pairing
import ClHost.Proofs.Array.Refusals
import ClHost.Proofs.Array.Reinterpreting
import ClHost.Proofs.Array.RoundTrip
import ClHost.Proofs.Bitonic.Sorts
import ClHost.Proofs.CType.Spelling
import ClHost.Proofs.Device.Choosing
import ClHost.Proofs.Kernel.Agreement
import ClHost.Proofs.Pool.Exhaustion
import ClHost.Proofs.Program.CleanUp
import ClHost.Proofs.Radix.Sorting
import ClHost.Proofs.Reduction.Strided
import ClHost.Proofs.Scan.Snippets
import ClHost.Proofs.Session.Expansion
import ClHost.Proofs.Source.Staleness
import ClHost.Session.Json
import ClHost.Proofs.Array.Events
import ClHost.Proofs.Elementwise.Ranges
import ClHost.Proofs.Radix.Choice
import ClHost.Proofs.Random.Counters
