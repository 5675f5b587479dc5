import Xpedite.Samples.SampleCore

/-!
The trampolines of `DataProbeCtl.S` and `IdentityProbeCtl.S` up to their `ret`, on as
much of the machine as they use.  The stack, the thread's local storage and the
samples buffer are apart from each other, so each has a store of its own.
-/

namespace Xpedite.Samples

open Lib

inductive Register where
  | rax
  | rdx
  | rcx
  | rsi
  | rdi
  deriving DecidableEq

/-- Offsets from `%fs` that the linker gives to the thread's variables. -/
structure TlsLayout where
  samplesBufferPtr : UInt64
  samplesBufferEnd : UInt64
  apart : samplesBufferPtr ≠ samplesBufferEnd
  ptrOffBase : samplesBufferPtr ≠ 0
  endOffBase : samplesBufferEnd ≠ 0

structure Machine where
  registers : Register → UInt64
  /-- The words from `%rsp` upwards. -/
  stack : List UInt64
  /-- The words at `%fs:(offset)`. -/
  tls : UInt64 → UInt64
  memory : Memory
  /-- The carry flag after a comparison. -/
  below : Bool

inductive Instruction where
  | push (source : Register)
  | pop (target : Register)
  /-- `movq samplesBufferPtr@gottpoff(%rip), target` -/
  | ptrOffset (target : Register)
  /-- `movq samplesBufferEnd@gottpoff(%rip), target` -/
  | endOffset (target : Register)
  /-- `movq %fs:(offset), target` -/
  | loadTls (offset target : Register)
  /-- `movq %fs:0, target` -/
  | loadTlsBase (target : Register)
  /-- `movq source, %fs:(offset)` -/
  | storeTls (source offset : Register)
  /-- `addq $number, %fs:(offset)` -/
  | addTls (number : UInt64) (offset : Register)
  /-- `cmpq %fs:(offset), operand` -/
  | cmpTls (offset operand : Register)
  /-- `jae 1f`, to the part that calls a recorder -/
  | jae
  /-- `movq displacement(%rsp), target` -/
  | loadStack (displacement : Nat) (target : Register)
  /-- `movq source, displacement(base)` -/
  | store (source : Register) (displacement : Nat) (base : Register)
  | rdtsc
  | orImmediate (number : UInt64) (target : Register)
  | addImmediate (number : UInt64) (target : Register)
  | shl (count : UInt64) (target : Register)
  | or (source target : Register)
  | ret

namespace Machine

variable (machine : Machine)

def set (target : Register) (value : UInt64) : Machine :=
  { machine with
    registers := fun register => if register = target then value else machine.registers register }

def setTls (offset value : UInt64) : Machine :=
  { machine with tls := fun place => if place = offset then value else machine.tls place }

def execute (layout : TlsLayout) (clock : UInt64) : Instruction → Machine
  | .push source => { machine with stack := machine.registers source :: machine.stack }
  | .pop target => { machine.set target (machine.stack.headD 0) with stack := machine.stack.tail }
  | .ptrOffset target => machine.set target layout.samplesBufferPtr
  | .endOffset target => machine.set target layout.samplesBufferEnd
  | .loadTls offset target => machine.set target (machine.tls (machine.registers offset))
  | .loadTlsBase target => machine.set target (machine.tls 0)
  | .storeTls source offset =>
      machine.setTls (machine.registers offset) (machine.registers source)
  | .addTls number offset =>
      machine.setTls (machine.registers offset) (machine.tls (machine.registers offset) + number)
  | .cmpTls offset operand =>
      { machine with below := machine.registers operand < machine.tls (machine.registers offset) }
  | .jae => machine
  | .loadStack displacement target =>
      machine.set target (machine.stack.getD (displacement / 8) 0)
  | .store source displacement base =>
      { machine with
        memory := machine.memory.store64 ((machine.registers base).toNat + displacement)
          (machine.registers source) }
  | .rdtsc => (machine.set .rax (clock &&& 0xFFFFFFFF)).set .rdx (clock >>> 32)
  | .orImmediate number target => machine.set target (machine.registers target ||| number)
  | .addImmediate number target => machine.set target (machine.registers target + number)
  | .shl count target => machine.set target (machine.registers target <<< count)
  | .or source target => machine.set target (machine.registers target ||| machine.registers source)
  | .ret => { machine with stack := machine.stack.tail }

/-- Instructions in a row; `none` is a jump to the part that calls a recorder. -/
def run (layout : TlsLayout) (clock : UInt64) (machine : Machine) :
    List Instruction → Option Machine
  | [] => some machine
  | .jae :: rest => if machine.below then run layout clock machine rest else none
  | instruction :: rest => run layout clock (machine.execute layout clock instruction) rest

end Machine

def xpediteDataProbeTrampoline : List Instruction :=
  [.push .rax,
    .push .rdx,
    .push .rsi,
    .push .rdi,
    .ptrOffset .rsi,
    .endOffset .rdi,
    .loadTls .rsi .rcx,
    .cmpTls .rdi .rcx,
    .jae,
    .store .rax 0x10 .rcx,
    .store .rdx 0x18 .rcx,
    .rdtsc,
    .orImmediate 0x40000000 .rdx,
    .shl 0x20 .rdx,
    .or .rax .rdx,
    .loadStack 0x20 .rax,
    .store .rdx 0x0 .rcx,
    .store .rax 0x8 .rcx,
    .addImmediate 0x20 .rcx,
    .storeTls .rcx .rsi,
    .pop .rdi,
    .pop .rsi,
    .pop .rdx,
    .pop .rax,
    .ret]

def xpediteIdentityTrampoline : List Instruction :=
  [.ptrOffset .rax,
    .endOffset .rdx,
    .loadTls .rax .rcx,
    .cmpTls .rdx .rcx,
    .jae,
    .addTls 0x10 .rax,
    .rdtsc,
    .shl 0x20 .rdx,
    .or .rax .rdx,
    .store .rdx 0x0 .rcx,
    .loadStack 0x0 .rax,
    .store .rax 0x8 .rcx,
    .loadTlsBase .rax,
    .ret]

end Xpedite.Samples
