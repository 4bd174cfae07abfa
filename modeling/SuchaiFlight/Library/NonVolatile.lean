import SuchaiFlight.Library.ByteMemory

/-!
Non-volatile media and the operations on them: a memory that is written byte
by byte, and a flash that is programmed in blocks and erased in sections. The
operations are kept in a log, newest first, so that a run can be cut at any of
them and every program operation can be compared with the erases before it.
-/
namespace NonVolatile
open ByteMemory

structure Media where
  fram : Mem
  flash : Mem

inductive NvOp where
  | framWrite (addr : Nat) (data : List UInt8)
  | flashWrite (addr : Nat) (data : List UInt8)
  | flashErase (addr size : Nat)
  deriving DecidableEq

def NvOp.apply (m : Media) : NvOp → Media
  | .framWrite addr data => { m with fram := write m.fram addr data }
  | .flashWrite addr data => { m with flash := write m.flash addr data }
  | .flashErase addr size => { m with flash := fill m.flash addr size 0 }

def NvOp.spoil (m : Media) (junk : Nat → UInt8) : NvOp → Media
  | .framWrite addr data => { m with fram := write m.fram addr ((List.range data.length).map junk) }
  | .flashWrite addr data =>
    { m with flash := write m.flash addr ((List.range data.length).map junk) }
  | .flashErase addr size => { m with flash := write m.flash addr ((List.range size).map junk) }

def replay (m : Media) : List NvOp → Media
  | [] => m
  | op :: ops => replay (op.apply m) ops

def Programmed : List NvOp → Nat → Prop
  | [], _ => False
  | .framWrite _ _ :: older, x => Programmed older x
  | .flashWrite addr data :: older, x => (addr ≤ x ∧ x < addr + data.length) ∨ Programmed older x
  | .flashErase addr size :: older, x => ¬ (addr ≤ x ∧ x < addr + size) ∧ Programmed older x

def ProgramsOnce (base : List NvOp) : List NvOp → Prop
  | [] => True
  | .framWrite _ _ :: older => ProgramsOnce base older
  | .flashErase _ _ :: older => ProgramsOnce base older
  | .flashWrite addr data :: older => ProgramsOnce base older ∧
      ∀ x, addr ≤ x → x < addr + data.length → ¬ Programmed (older ++ base) x

end NonVolatile
