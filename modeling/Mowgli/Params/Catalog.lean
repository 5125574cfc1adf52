import Mowgli.Lib.Binary
import Mowgli.Params.Log

/-!
# Catalog — the parameters a firmware knows

`include/fw_param_catalog.h`: for each parameter a stable wire id, a kind, and the
absolute envelope its value is coerced into. Ids are also the keys of the records in
flash, and a record may have been written by a firmware with **another table**, so
everything that reads or writes records takes its table as a parameter (`Table`), and
`catalog` is the one the source has now.

A table has no id twice and at most 32 parameters, the width of the report bitmask.
-/

namespace Mowgli
namespace Params

open Binary32 (Bits)

inductive Group where
  | drive
  | yaw
  | kinematics
  | charge
  | emergency
  | imu
deriving DecidableEq, Inhabited

def Group.code : Group → Nat
  | .drive => 0
  | .yaw => 1
  | .kinematics => 2
  | .charge => 3
  | .emergency => 4
  | .imu => 5

def GROUP_COUNT : Nat := 6

inductive Kind where
  /-- Any finite value in the envelope. -/
  | real
  /-- Rounded to the nearest integer. -/
  | int
  /-- 0 or 1. -/
  | bool
  /-- -1 or +1. -/
  | sign
deriving DecidableEq, Inhabited

/-- `fw_param_spec_t`; `isVolatile` is its one flag, not persisted in flash. -/
structure Spec where
  id : BitVec 16
  group : Group
  kind : Kind
  isVolatile : Bool
  min : Bits
  max : Bits
deriving DecidableEq, Inhabited

inductive Status where
  | ok
  | clamped
  | unknownId
  | rejected
deriving DecidableEq

/-! ## The table of the source -/

def TICKS_PER_METER : BitVec 16 := 1#16
def WHEEL_KP : BitVec 16 := 2#16
def WHEEL_KI : BitVec 16 := 3#16
def WHEEL_KD : BitVec 16 := 4#16
def WHEEL_INTEGRAL_LIMIT : BitVec 16 := 5#16
def PWM_PER_MPS : BitVec 16 := 6#16
def YAW_KP : BitVec 16 := 10#16
def YAW_KI : BitVec 16 := 11#16
def YAW_TRIM_LIMIT_MPS : BitVec 16 := 12#16
def YAW_LOOP_ENABLED : BitVec 16 := 13#16
def YAW_GYRO_SIGN : BitVec 16 := 14#16
def YAW_GYRO_BIAS_RADPS : BitVec 16 := 15#16
def MAX_MPS : BitVec 16 := 20#16
def WHEEL_BASE : BitVec 16 := 21#16
def MAX_CHARGE_VOLTAGE : BitVec 16 := 30#16
def MAX_CHARGE_CURRENT : BitVec 16 := 31#16
def ONE_WHEEL_LIFT_MS : BitVec 16 := 40#16
def BOTH_WHEELS_LIFT_MS : BitVec 16 := 41#16
def TILT_MS : BitVec 16 := 42#16
def STOP_BUTTON_MS : BitVec 16 := 43#16
def PLAY_CLEAR_MS : BitVec 16 := 44#16
def IMU_INCLINATION_THRESHOLD : BitVec 16 := 50#16

/-- GET_PARAM with this id asks for every parameter. -/
def ID_ALL : BitVec 16 := 0xFFFF#16

/-- `FW_PARAM_SPECS`, the bounds as float bits. -/
def catalog : List Spec := [
  ⟨TICKS_PER_METER, .drive, .real, false, 0x42480000#32, 0x459C4000#32⟩,         -- 50, 5000
  ⟨WHEEL_KP, .drive, .real, false, 0x00000000#32, 0x43480000#32⟩,                -- 0, 200
  ⟨WHEEL_KI, .drive, .real, false, 0x00000000#32, 0x469C4000#32⟩,                -- 0, 20000
  ⟨WHEEL_KD, .drive, .real, false, 0x00000000#32, 0x43FA0000#32⟩,                -- 0, 500
  ⟨WHEEL_INTEGRAL_LIMIT, .drive, .real, false, 0x00000000#32, 0x437F0000#32⟩,    -- 0, 255
  ⟨PWM_PER_MPS, .drive, .real, false, 0x42480000#32, 0x44160000#32⟩,             -- 50, 600
  ⟨YAW_KP, .yaw, .real, false, 0x00000000#32, 0x40A00000#32⟩,                    -- 0, 5
  ⟨YAW_KI, .yaw, .real, false, 0x00000000#32, 0x41A00000#32⟩,                    -- 0, 20
  ⟨YAW_TRIM_LIMIT_MPS, .yaw, .real, false, 0x00000000#32, 0x3F000000#32⟩,        -- 0, 0.5
  ⟨YAW_LOOP_ENABLED, .yaw, .bool, false, 0x00000000#32, 0x3F800000#32⟩,          -- 0, 1
  ⟨YAW_GYRO_SIGN, .yaw, .sign, false, 0xBF800000#32, 0x3F800000#32⟩,             -- -1, 1
  ⟨YAW_GYRO_BIAS_RADPS, .yaw, .real, true, 0xBF000000#32, 0x3F000000#32⟩,        -- -0.5, 0.5
  ⟨MAX_MPS, .kinematics, .real, false, 0x3DCCCCCD#32, 0x3F19999A#32⟩,            -- 0.1, 0.6
  ⟨WHEEL_BASE, .kinematics, .real, false, 0x3E19999A#32, 0x3F19999A#32⟩,         -- 0.15, 0.6
  ⟨MAX_CHARGE_VOLTAGE, .charge, .real, false, 0x41C9999A#32, 0x41EB3333#32⟩,     -- 25.2, 29.4
  ⟨MAX_CHARGE_CURRENT, .charge, .real, false, 0x3DCCCCCD#32, 0x3F99999A#32⟩,     -- 0.1, 1.2
  ⟨ONE_WHEEL_LIFT_MS, .emergency, .int, false, 0x41200000#32, 0x459C4000#32⟩,    -- 10, 5000
  ⟨BOTH_WHEELS_LIFT_MS, .emergency, .int, false, 0x41200000#32, 0x453B8000#32⟩,  -- 10, 3000
  ⟨TILT_MS, .emergency, .int, false, 0x41200000#32, 0x447A0000#32⟩,              -- 10, 1000
  ⟨STOP_BUTTON_MS, .emergency, .int, false, 0x41200000#32, 0x437A0000#32⟩,       -- 10, 250
  ⟨PLAY_CLEAR_MS, .emergency, .int, false, 0x43FA0000#32, 0x461C4000#32⟩,        -- 500, 10000
  ⟨IMU_INCLINATION_THRESHOLD, .imu, .int, false, 0x42300000#32, 0x42800000#32⟩]  -- 44, 64

/-- `fw_param_coerce`: the value to apply and its status, or `none` for a value that is
    rejected and leaves the current one. -/
def coerce (spec : Spec) (requested : Bits) : Option (Bits × Status) :=
  if !Binary32.isFinite requested then none
  else
    let v :=
      match spec.kind with
      | .int => Binary32.floorHalf requested
      | .bool => if Binary32.eq requested 0#32 then 0#32 else 0x3F800000#32
      | .sign => if Binary32.lt requested 0#32 then 0xBF800000#32 else 0x3F800000#32
      | .real => requested
    let v :=
      if Binary32.lt v spec.min then spec.min
      else if Binary32.lt spec.max v then spec.max
      else v
    some (v, if Binary32.eq v requested then .ok else .clamped)

/-! ## Tables -/

/-- The parameters of a firmware, with the defaults compiled for its board. -/
structure Table where
  specs : List Spec
  compiledDefault : BitVec 16 → Bits
  nodup : (specs.map Spec.id).Nodup
  count_le : specs.length ≤ 32

namespace Table

def count (T : Table) : Nat := T.specs.length

/-- `fw_param_index`; `none` is the -1 of an unknown id. -/
def index (T : Table) (id : BitVec 16) : Option Nat :=
  T.specs.findIdx? fun spec => spec.id == id

/-- `FW_PARAM_SPECS[i]`. -/
def spec (T : Table) (i : Nat) : Spec := T.specs.getD i default

def isVolatile (T : Table) (i : Nat) : Bool := (T.spec i).isVolatile

/-- The indices of the persistent parameters, in table order. -/
def persistent (T : Table) : List Nat :=
  (List.range T.count).filter fun i => !T.isVolatile i

/-- `fw_params_record_words`. -/
def recordWords (T : Table) : Nat :=
  Log.recordWords T.persistent.length

/-- `FW_PARAMS_RECORD_MAX_WORDS`. -/
def recordMaxWords (T : Table) : Nat :=
  Log.HEADER_WORDS + 2 * T.count + Log.TRAILER_WORDS

/-- The persistent subset of `values`, as `fw_params_encode` lists it. -/
def persisted (T : Table) (values : Nat → Bits) : List Log.Entry :=
  T.persistent.map fun i => ((T.spec i).id, values i)

/-- `fw_params_encode`. -/
def encode (T : Table) (values : Nat → Bits) : Option (List Word) :=
  Log.encode (T.persisted values) T.recordMaxWords

end Table

/-- The defaults of the Yardforce 500 board. -/
def yardforce500 (id : BitVec 16) : Bits :=
  if id = TICKS_PER_METER then 0x43A98000#32              -- 339
  else if id = WHEEL_KP then 0x41F00000#32                -- 30
  else if id = WHEEL_KI then 0x459C4000#32                -- 5000
  else if id = WHEEL_KD then 0x00000000#32                -- 0
  else if id = WHEEL_INTEGRAL_LIMIT then 0x42C80000#32    -- 100
  else if id = PWM_PER_MPS then 0x43A88000#32             -- 337
  else if id = YAW_KP then 0x3E99999A#32                  -- 0.3
  else if id = YAW_KI then 0x3ECCCCCD#32                  -- 0.4
  else if id = YAW_TRIM_LIMIT_MPS then 0x3E19999A#32      -- 0.15
  else if id = YAW_LOOP_ENABLED then 0x3F800000#32        -- 1
  else if id = YAW_GYRO_SIGN then 0x3F800000#32           -- 1
  else if id = YAW_GYRO_BIAS_RADPS then 0x00000000#32     -- 0
  else if id = MAX_MPS then 0x3F000000#32                 -- 0.5
  else if id = WHEEL_BASE then 0x3EA66666#32              -- 0.325
  else if id = MAX_CHARGE_VOLTAGE then 0x41EB3333#32      -- 29.4
  else if id = MAX_CHARGE_CURRENT then 0x3F99999A#32      -- 1.2
  else if id = ONE_WHEEL_LIFT_MS then 0x44FA0000#32       -- 2000
  else if id = BOTH_WHEELS_LIFT_MS then 0x447A0000#32     -- 1000
  else if id = TILT_MS then 0x43FA0000#32                 -- 500
  else if id = STOP_BUTTON_MS then 0x42C80000#32          -- 100
  else if id = PLAY_CLEAR_MS then 0x44FA0000#32           -- 2000
  else if id = IMU_INCLINATION_THRESHOLD then 0x42600000#32  -- 56
  else 0x7FC00000#32                                      -- NaN

/-- The table of the source on a Yardforce 500. -/
def Table.yardforce : Table where
  specs := catalog
  compiledDefault := yardforce500
  nodup := by decide
  count_le := by decide

end Params
end Mowgli
