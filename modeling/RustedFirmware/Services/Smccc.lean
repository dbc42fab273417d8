import RustedFirmware.Lib.Rust

set_option autoImplicit false

/-! SMC function identifiers and the services that own them (`src/smccc.rs`,
    `src/services.rs`).

    A function ID is a 32-bit word: bit 31 marks a fast call, bit 30 a 64-bit one, bits 29..24
    name the owning entity and the low 16 bits the function. `Services::handle_smc` hands a
    valid ID to the first service whose `owns` accepts it; every service's `owns` is the
    `owns!` test of one owning entity and, for all but the architecture service, one range of
    function numbers.

    The build modelled has the `rme` feature: the Realm World exists and the RMMD is one of the
    services. The platform's own service is the repository's `DummyService`, which owns
    nothing. -/

namespace RustedFirmware

/-- `World`: the security state of the lower EL that EL3 runs. -/
inductive World where
  | nonSecure
  | secure
  | realm
  deriving DecidableEq, Repr

/-- `SmcccCallType`. -/
inductive SmcccCallType where
  | fast32
  | fast64
  | yielding
  deriving DecidableEq, Repr

/-- `FunctionId`: the function identifier in `x0` of an SMC. -/
structure FunctionId where
  val : UInt32
  deriving DecidableEq, Repr

namespace FunctionId

/-- `FunctionId::oen`: bits 29..24. -/
def oen (f : FunctionId) : UInt8 := ((f.val &&& 0x3f00_0000) >>> 24).toUInt8

/-- `FunctionId::number`: the low 16 bits. -/
def number (f : FunctionId) : UInt16 := f.val.toUInt16

/-- `FunctionId::call_type`. -/
def callType (f : FunctionId) : SmcccCallType :=
  if f.val &&& 0x8000_0000 ≠ 0 then
    if f.val &&& 0x4000_0000 ≠ 0 then .fast64 else .fast32
  else .yielding

/-- `FunctionId::valid`: a fast call has its reserved bits 23..17 clear. -/
def valid (f : FunctionId) : Bool :=
  f.callType = .yielding || f.val &&& ((0x7f : UInt32) <<< 17) = 0

end FunctionId

/-- `SUCCESS`. -/
def success : Int := 0

/-- `SmcReturn`: the values an SMC call returns, `values[..used]`. The calls modelled read and
    write only these; the rest of the array is stale. -/
structure SmcReturn where
  values : List UInt64
  deriving DecidableEq, Repr

namespace SmcReturn

/-- `SetFrom<u64>`: one value. -/
def setFrom (value : UInt64) : SmcReturn := ⟨[value]⟩

/-- `SetFrom<i32>`: one value, sign-extended by `value as u64`. -/
def setFromI32 (value : Int) : SmcReturn := setFrom (UInt64.ofInt value)

/-- `set_args4`. -/
def setArgs4 (a0 a1 a2 a3 : UInt64) : SmcReturn := ⟨[a0, a1, a2, a3]⟩

end SmcReturn

/-- `OwningEntityNumber::ARM_ARCHITECTURE`. -/
def armArchitecture : UInt8 := 0

/-- `OwningEntityNumber::STANDARD_SECURE`. -/
def standardSecure : UInt8 := 4

/-- The first form of `owns!`: a fast call of the owning entity `oen`. -/
def ownsEntity (oen : UInt8) (f : FunctionId) : Bool :=
  f.oen = oen && (f.callType = .fast32 || f.callType = .fast64)

/-- The second form of `owns!`: a fast call of the owning entity `oen` whose function number
    lies in `lo..=hi`. -/
def ownsRange (oen : UInt8) (lo hi : UInt16) (f : FunctionId) : Bool :=
  f.oen = oen && (lo ≤ f.number && f.number ≤ hi) &&
    (f.callType = .fast32 || f.callType = .fast64)

/-- The services of `Services`, in the order `handle_smc` asks them. -/
inductive Service where
  | arch
  | psci
  | platform
  | spmd
  | errataManagement
  | trng
  | rmmd
  deriving DecidableEq, Repr

namespace Service

/-- Each service's `owns`. -/
def owns : Service → FunctionId → Bool
  | .arch => ownsEntity armArchitecture
  | .psci => ownsRange standardSecure 0x0000 0x001F
  | .platform => fun _ => false
  | .spmd => ownsRange standardSecure 0x0060 0x00EF
  | .errataManagement => ownsRange standardSecure 0x00F0 0x010F
  | .trng => ownsRange standardSecure 0x50 0x53
  | .rmmd => ownsRange standardSecure 0x0150 0x01CF

/-- The service `handle_smc` dispatches a valid function ID to: the first that owns it. -/
def owner (f : FunctionId) : Option Service :=
  if arch.owns f then some .arch
  else if psci.owns f then some .psci
  else if platform.owns f then some .platform
  else if spmd.owns f then some .spmd
  else if errataManagement.owns f then some .errataManagement
  else if trng.owns f then some .trng
  else if rmmd.owns f then some .rmmd
  else none

/-- Every service owns fast calls only. -/
theorem callType_of_owns {s : Service} {f : FunctionId} (h : s.owns f) :
    f.callType ≠ .yielding := by
  intro hy
  cases s <;> simp_all [owns, ownsEntity, ownsRange]

theorem owns_of_owner {f : FunctionId} {s : Service} (h : owner f = some s) : s.owns f := by
  unfold owner at h
  split_ifs at h <;> simp_all

end Service

end RustedFirmware
