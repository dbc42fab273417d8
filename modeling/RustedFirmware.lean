import RustedFirmware.Lib.Rust
import RustedFirmware.Lib.Transition
import RustedFirmware.Lib.BitRing
import RustedFirmware.Lib.Utf8
import RustedFirmware.Lib.Fold
import RustedFirmware.Lib.Bfs
import RustedFirmware.Gpt.Table
import RustedFirmware.Gpt.Protection
import RustedFirmware.Gpt.Programmed
import RustedFirmware.Services.Rmmd
import RustedFirmware.Pagetable.EarlyPagetable
import RustedFirmware.Trng.Pool
import RustedFirmware.Trng.Pack
import RustedFirmware.Trng.Fifo
import RustedFirmware.Services.Smccc
import RustedFirmware.Trng.Handlers
import RustedFirmware.Services.Spmd
import RustedFirmware.Services.RunLoop
import RustedFirmware.Psci.PowerState
import RustedFirmware.Psci.Tree
import RustedFirmware.Psci.Coordination
import RustedFirmware.Psci.Calls
import RustedFirmware.Psci.System
import RustedFirmware.Psci.Suspend
import RustedFirmware.Psci.Fvp
import RustedFirmware.Psci.Build
import RustedFirmware.Psci.Validation
import RustedFirmware.Psci.Walk
import RustedFirmware.Psci.Apply
import RustedFirmware.Services.Attestation
import RustedFirmware.Services.Manifest
import RustedFirmware.Logger.InMemory
import RustedFirmware.Psci.Sections
import RustedFirmware.Psci.Invariant
import RustedFirmware.Psci.Domains
import RustedFirmware.Psci.Votes
