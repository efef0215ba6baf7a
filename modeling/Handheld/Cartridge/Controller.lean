import Handheld.Fault

/-! Bank controllers. Writes to the ROM windows of a cartridge do not reach memory; they set
the controller's registers, which choose the banks that the windows show.
-/

namespace Handheld

/-- The families of bank controllers. -/
inductive ControllerKind where
  | fixed
  | mbc1
  | mbc3
  | mbc5
  deriving DecidableEq, Repr

/-- The registers of a bank controller. -/
inductive Controller where
  /-- No controller: the banks never change and external RAM is always on. -/
  | fixed
  /-- Five low ROM bank bits, two upper bits and a mode that lets the upper bits act on the
  lower ROM window and on RAM as well. -/
  | mbc1 (romBank upper : UInt8) (advanced ramEnabled : Bool)
  /-- Seven ROM bank bits and two RAM bank bits. -/
  | mbc3 (romBank ramBank : UInt8) (ramEnabled : Bool)
  /-- Nine ROM bank bits and four RAM bank bits. -/
  | mbc5 (romBank : UInt16) (ramBank : UInt8) (ramEnabled : Bool)
  deriving DecidableEq, Repr

namespace Controller

/-- A controller of a family as it is after power on. -/
def initial : ControllerKind → Controller
  | .fixed => .fixed
  | .mbc1 => .mbc1 1 0 false false
  | .mbc3 => .mbc3 1 0 false
  | .mbc5 => .mbc5 1 0 false

def kind : Controller → ControllerKind
  | .fixed => .fixed
  | .mbc1 .. => .mbc1
  | .mbc3 .. => .mbc3
  | .mbc5 .. => .mbc5

/-- The ROM bank selected for the lower window, before reduction to the banks present. -/
def lowBank : Controller → Nat
  | .mbc1 _ upper true _ => upper.toNat * 32
  | _ => 0

/-- The ROM bank selected for the upper window, before reduction to the banks present. -/
def highBank : Controller → Nat
  | .fixed => 1
  | .mbc1 romBank upper _ _ => upper.toNat * 32 + romBank.toNat
  | .mbc3 romBank _ _ => romBank.toNat
  | .mbc5 romBank _ _ => romBank.toNat

/-- The RAM bank selected, before reduction to the banks present. -/
def ramBank : Controller → Nat
  | .fixed => 0
  | .mbc1 _ upper advanced _ => if advanced then upper.toNat else 0
  | .mbc3 _ bank _ => bank.toNat
  | .mbc5 _ bank _ => bank.toNat

/-- Whether external RAM answers. -/
def ramEnabled : Controller → Bool
  | .fixed => true
  | .mbc1 _ _ _ enabled => enabled
  | .mbc3 _ _ enabled => enabled
  | .mbc5 _ _ enabled => enabled

/-- The value that switches external RAM on: a low digit of ten. -/
def enables (value : UInt8) : Bool :=
  value &&& 0x0F == 0x0A

/-- A bank number in which zero stands for one. -/
def atLeastOne (bank : UInt8) : UInt8 :=
  if bank = 0 then 1 else bank

/-- The controller after a write below 0x8000. Only the selection of a clock register, which
is not modelled, is refused.
-/
def write (controller : Controller) (address : UInt16) (value : UInt8)
    : Except Fault Controller :=
  match controller with
  | .fixed => .ok .fixed
  | .mbc1 romBank upper advanced enabled =>
      if address < 0x2000 then .ok (.mbc1 romBank upper advanced (enables value))
      else if address < 0x4000 then
        .ok (.mbc1 (atLeastOne (value &&& 0x1F)) upper advanced enabled)
      else if address < 0x6000 then .ok (.mbc1 romBank (value &&& 0x03) advanced enabled)
      else .ok (.mbc1 romBank upper (value &&& 0x01 == 1) enabled)
  | .mbc3 romBank bank enabled =>
      if address < 0x2000 then .ok (.mbc3 romBank bank (enables value))
      else if address < 0x4000 then .ok (.mbc3 (atLeastOne (value &&& 0x7F)) bank enabled)
      else if address < 0x6000 then
        if 0x08 ≤ value && value ≤ 0x0C then .error (.clockSelect address value)
        else .ok (.mbc3 romBank (value &&& 0x03) enabled)
      else .ok (.mbc3 romBank bank enabled)
  | .mbc5 romBank bank enabled =>
      if address < 0x2000 then .ok (.mbc5 romBank bank (enables value))
      else if address < 0x3000 then
        .ok (.mbc5 (romBank &&& (0x100 : UInt16) ||| value.toUInt16) bank enabled)
      else if address < 0x4000 then
        let ninth := (value &&& 0x01).toUInt16 <<< 8
        .ok (.mbc5 (romBank &&& (0xFF : UInt16) ||| ninth) bank enabled)
      else if address < 0x6000 then .ok (.mbc5 romBank (value &&& 0x0F) enabled)
      else .ok (.mbc5 romBank bank enabled)

end Controller

end Handheld
