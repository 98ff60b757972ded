import M68kMachine.Drivers.Virtionet

/-!
# The capability walk of virtionet.device

`find_virtio_caps` of `virtionet_device.c`: the driver follows the links of configuration space and
takes the places of the four virtio structures from their capabilities. The byte accessor of
prometheus.library numbers the bytes of a longword from the most significant one.

* `PrmConfig` — what the two accessors of the library answer for a board
* `capStep`, `findVirtioCaps` — one capability, and the walk with as many rounds to go
-/

namespace M68kMachine

namespace VNet

/-- `Prm_ReadConfigByte` and `Prm_ReadConfigLong` of a board. -/
structure PrmConfig where
  readByte : Byte → Byte
  readLong : Byte → Long

/-- The accessors over 256 bytes of configuration space. -/
def PrmConfig.ofSpace (space : Byte → Byte) : PrmConfig where
  readByte o := space (o ^^^ 3)
  readLong o :=
    let base := o &&& ~~~3
    be32 (space (base + 3)) (space (base + 2)) (space (base + 1)) (space base)

def cfgByte (cfg : PrmConfig) (p : Byte) : Byte := cfg.readByte (p ^^^ 3)

def cfgLong (cfg : PrmConfig) (p : Byte) : Long := cfg.readLong p

/-! ### `virtio_pci.h` -/

namespace VirtioPci

abbrev capIdVndr : Byte := 0x09
abbrev capVndrOff : Byte := 0x00
abbrev capNextOff : Byte := 0x01
abbrev capCfgtypeOff : Byte := 0x03
abbrev capBarOff : Byte := 0x04
abbrev capOffsetOff : Byte := 0x08
abbrev notifyCapMultOff : Byte := 0x10
abbrev commonCfg : Byte := 1
abbrev notifyCfg : Byte := 2
abbrev isrCfg : Byte := 3
abbrev deviceCfg : Byte := 4
abbrev cfgCapPtr : Byte := 0x34

end VirtioPci

open VirtioPci

/-- The fields of `VNetBase` the walk fills. -/
structure CapBase where
  commonCfg : Long
  notifyBase : Long
  notifyOffMultiplier : Long
  isrCfg : Long
  deviceCfg : Long
  deriving DecidableEq

structure CapWalk where
  base : CapBase
  capPtr : Byte
  gotCommon : Bool
  gotNotify : Bool
  gotIsr : Bool
  gotDevice : Bool

/-- A vendor capability that names another BAR than the first. -/
def refusedCap (cfg : PrmConfig) (p : Byte) : Bool :=
  cfgByte cfg (p + capVndrOff) = capIdVndr && cfgByte cfg (p + capBarOff) ≠ 0

/-- The structure a vendor capability places. -/
def placeCap (cfg : PrmConfig) (apertureCpu : Long) (s : CapWalk) : CapWalk :=
  let p := s.capPtr
  let cfgtype := cfgByte cfg (p + capCfgtypeOff)
  let off := cfgLong cfg (p + capOffsetOff)
  if cfgtype = VirtioPci.commonCfg then
    { s with base := { s.base with commonCfg := apertureCpu + off }, gotCommon := true }
  else if cfgtype = notifyCfg then
    { s with
      base := { s.base with
        notifyBase := apertureCpu + off
        notifyOffMultiplier := cfgLong cfg (p + notifyCapMultOff) }
      gotNotify := true }
  else if cfgtype = VirtioPci.isrCfg then
    { s with base := { s.base with isrCfg := apertureCpu + off }, gotIsr := true }
  else if cfgtype = VirtioPci.deviceCfg then
    { s with base := { s.base with deviceCfg := apertureCpu + off }, gotDevice := true }
  else s

/-- One capability, or `none` where it is refused. -/
def capStep (cfg : PrmConfig) (apertureCpu : Long) (s : CapWalk) : Option CapWalk :=
  let vndr := cfgByte cfg (s.capPtr + capVndrOff)
  let next := cfgByte cfg (s.capPtr + capNextOff)
  if refusedCap cfg s.capPtr then none
  else
    let s := if vndr = capIdVndr then placeCap cfg apertureCpu s else s
    some { s with capPtr := next }

/-- The walk, `none` where it did not return in the rounds given. -/
def capWalk (cfg : PrmConfig) (apertureCpu : Long) : Nat → CapWalk → Option (Bool × CapBase)
  | 0, _ => none
  | rounds + 1, s =>
    if s.capPtr = 0 then some (s.gotCommon && s.gotNotify && s.gotIsr && s.gotDevice, s.base)
    else
      match capStep cfg apertureCpu s with
      | none => some (false, s.base)
      | some s' => capWalk cfg apertureCpu rounds s'

def findVirtioCaps (cfg : PrmConfig) (apertureCpu : Long) (base : CapBase) (rounds : Nat) :
    Option (Bool × CapBase) :=
  capWalk cfg apertureCpu rounds
    { base := base
      capPtr := cfgByte cfg cfgCapPtr
      gotCommon := false
      gotNotify := false
      gotIsr := false
      gotDevice := false }

end VNet

end M68kMachine
