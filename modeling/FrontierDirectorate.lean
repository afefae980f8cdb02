import FrontierDirectorate.Lib.ByteCodec
import FrontierDirectorate.Lib.Checks
import FrontierDirectorate.Lib.Accounting
import FrontierDirectorate.Lib.IndexedHeap
import FrontierDirectorate.Core.Endian
import FrontierDirectorate.Core.Types
import FrontierDirectorate.Core.Sha256
import FrontierDirectorate.Core.Rng
import FrontierDirectorate.Core.Hash
import FrontierDirectorate.Core.Context
import FrontierDirectorate.Core.Inputs
import FrontierDirectorate.Core.Validate
import FrontierDirectorate.Core.Invariants
import FrontierDirectorate.Core.Wire
import FrontierDirectorate.Core.Sections
import FrontierDirectorate.Core.Serialize
import FrontierDirectorate.Core.SaveFrames
import FrontierDirectorate.Core.SaveLayout
import FrontierDirectorate.Core.SaveDecode
import FrontierDirectorate.Core.SaveRoundTrip
import FrontierDirectorate.Core.Preimage
import FrontierDirectorate.Core.Step
import FrontierDirectorate.Core.StepLaws
import FrontierDirectorate.Core.Terrain
import FrontierDirectorate.Core.Road
import FrontierDirectorate.Core.Generate
import FrontierDirectorate.Core.GenerateLaws
import FrontierDirectorate.Core.ReplayWire
import FrontierDirectorate.Core.Replay
import FrontierDirectorate.Core.ReplayOpen
import FrontierDirectorate.Core.Play
import FrontierDirectorate.Core.Runs
import FrontierDirectorate.Core.Clock
import FrontierDirectorate.Core.Accounts
import FrontierDirectorate.Core.AdvanceLaws
import FrontierDirectorate.Core.Session
import FrontierDirectorate.Core.SessionLaws
import FrontierDirectorate.Contract.Saves
import FrontierDirectorate.Contract.Sessions
import FrontierDirectorate.Core.Grid
import FrontierDirectorate.Core.TilePass
import FrontierDirectorate.Lib.InducedPath
import FrontierDirectorate.Contract.Validation
import FrontierDirectorate.Core.OverlayGraph
import FrontierDirectorate.Lib.Loops
import FrontierDirectorate.Core.RiverLaws
import FrontierDirectorate.Core.RoadLaws
import FrontierDirectorate.Core.CoastLaws
import FrontierDirectorate.Core.SectionGrammar
import FrontierDirectorate.Core.SectionFiles
import FrontierDirectorate.Contract.Files
import FrontierDirectorate.Lib.Related
import FrontierDirectorate.Core.Candidate
import FrontierDirectorate.Core.Isolation
import FrontierDirectorate.Core.Attempts
import FrontierDirectorate.Contract.Generation
import FrontierDirectorate.Core.Transcript
import FrontierDirectorate.Core.ReplayEntries
import FrontierDirectorate.Core.ReplayOpenLaws
import FrontierDirectorate.Core.ReplayWorlds
import FrontierDirectorate.Core.ReplayBuildLaws
import FrontierDirectorate.Core.ReplayRoundTrip
import FrontierDirectorate.Core.ReplayRebuild
import FrontierDirectorate.Contract.Replays
import FrontierDirectorate.Lib.Sampling
import FrontierDirectorate.Lib.KeyedRounds
import FrontierDirectorate.Core.RngLaws
import FrontierDirectorate.Contract.Random
import FrontierDirectorate.Lib.Fips180
import FrontierDirectorate.Core.Sha256Fips
import FrontierDirectorate.Core.Sha256Memory
import FrontierDirectorate.Contract.Hashing
import FrontierDirectorate.Core.ActionMask
import FrontierDirectorate.Contract.Actions
import FrontierDirectorate.Core.Views
import FrontierDirectorate.Core.Queries
import FrontierDirectorate.Terminal.Handles
import FrontierDirectorate.Terminal.Text
import FrontierDirectorate.Terminal.Screen
import FrontierDirectorate.Terminal.Maps
import FrontierDirectorate.Terminal.Audit
import FrontierDirectorate.Terminal.Control
import FrontierDirectorate.Terminal.ControlLaws
import FrontierDirectorate.Terminal.Frames
import FrontierDirectorate.Lib.Words
import FrontierDirectorate.Terminal.Entry
import FrontierDirectorate.Contract.Frames
import FrontierDirectorate.Terminal.MapLaws
import FrontierDirectorate.Contract.Control
import FrontierDirectorate.Lib.Ranks
import FrontierDirectorate.Terminal.AuditLaws
import FrontierDirectorate.Contract.Audits
import FrontierDirectorate.Terminal.Help
import FrontierDirectorate.Contract.Help
import FrontierDirectorate.Lib.HeapLaws
import FrontierDirectorate.Core.HeapMemory
import FrontierDirectorate.Core.HeapMemoryLaws
import FrontierDirectorate.Contract.Heap
import FrontierDirectorate.Lib.CheckedWords
import FrontierDirectorate.Core.ElevationChecks
import FrontierDirectorate.Core.ElevationLaws
import FrontierDirectorate.Core.CoastShape
import FrontierDirectorate.Contract.Elevation
import FrontierDirectorate.Core.SaveExtension
import FrontierDirectorate.Contract.Extensions
import FrontierDirectorate.Lib.CheckedMemory
import FrontierDirectorate.Core.SaveBuffer
import FrontierDirectorate.Lib.Regions
import FrontierDirectorate.Core.ReplayBuffer
import FrontierDirectorate.Core.ReplayBufferLaws
import FrontierDirectorate.Contract.Buffers
import FrontierDirectorate.Lib.Unwinding
import FrontierDirectorate.Cpp.Wrapper
import FrontierDirectorate.Core.Histories
import FrontierDirectorate.Cpp.WrapperLaws
import FrontierDirectorate.Cpp.WrapperCalls
import FrontierDirectorate.Cpp.WrapperReplays
import FrontierDirectorate.Cpp.ProgramLaws
import FrontierDirectorate.Contract.Wrapper
import FrontierDirectorate.Lib.ShortestPath
import FrontierDirectorate.Core.RoadSearchLaws
import FrontierDirectorate.Core.RoadTraceLaws
import FrontierDirectorate.Contract.Roads
import FrontierDirectorate.Core.PlanShape
import FrontierDirectorate.Core.ElevationFields
import FrontierDirectorate.Core.LandShape
import FrontierDirectorate.Core.RiverShape
import FrontierDirectorate.Core.GroundShape
import FrontierDirectorate.Core.SettleShape
import FrontierDirectorate.Core.MapChecks
import FrontierDirectorate.Core.MapReport
import FrontierDirectorate.Core.CandidateMap
import FrontierDirectorate.Contract.Candidates
import FrontierDirectorate.Contract.Fallback
