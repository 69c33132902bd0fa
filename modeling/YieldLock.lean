import YieldLock.Demo.FileTree
import YieldLock.Demo.Rehearsal
import YieldLock.Main
import YieldLock.Proofs.Ending
import YieldLock.Proofs.Handover
import YieldLock.Proofs.Shutdown
import YieldLock.Script.Counting
import YieldLock.Script.Run
import YieldLock.Proofs.Acquiring
import YieldLock.Proofs.Phase
import YieldLock.Proofs.Isolation
import YieldLock.Proofs.Builds
import YieldLock.Proofs.Scripts
import YieldLock.Proofs.Adoption
import YieldLock.Proofs.Announcement
import YieldLock.Proofs.Milestones
import YieldLock.Proofs.Initiation
import YieldLock.Proofs.Nesting
import YieldLock.Proofs.Ledger
import YieldLock.Proofs.Spawned
import YieldLock.Proofs.Deeds
import YieldLock.Proofs.Loop
import YieldLock.Proofs.Frames
import YieldLock.Proofs.Pace
import YieldLock.Proofs.Desk
import YieldLock.Proofs.Feed
import YieldLock.Proofs.Program
import YieldLock.Proofs.Outcome
import YieldLock.Proofs.Aftermath
import YieldLock.Proofs.Absorbing
import YieldLock.Proofs.Uncontended
import YieldLock.Proofs.Likeness
import YieldLock.Proofs.Merging
import YieldLock.Proofs.Ways
import YieldLock.Proofs.Convergence
import YieldLock.Proofs.TryAcquire
import YieldLock.Proofs.Course
import YieldLock.Proofs.Tally
import YieldLock.Proofs.Stopping
import YieldLock.Proofs.Serving
import YieldLock.Proofs.Fold
import YieldLock.Proofs.Supply
import YieldLock.Proofs.Attending
import YieldLock.Proofs.Service
import YieldLock.Proofs.Spelling
import YieldLock.Proofs.Numerals
import YieldLock.Proofs.WellFormed
import YieldLock.Proofs.Formats
import YieldLock.Proofs.Overlay
import YieldLock.Proofs.RoundTrip
import YieldLock.Proofs.Sleeping
import YieldLock.Proofs.Launch
