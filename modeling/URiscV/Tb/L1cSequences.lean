import URiscV.Hdl.L1Cache

/-!
# The cache sequences

`rv_l1c_sequence_lib`: the requests that the directed sequences send, in order.
-/

namespace URiscV.Tb.L1cSequences

open Hdl (L1Req)

def makeAddr (tag : BitVec 24) (idx : BitVec 4) (word : BitVec 2) : BitVec 32 :=
  tag ++ idx ++ word ++ 0#2

def doRead (addr : BitVec 32) : L1Req where
  wr := false
  addr := addr
  wdata := 0
  wmask := 0x0

def doWrite (addr : BitVec 32) (data : BitVec 32) (mask : BitVec 4 := 0xF) : L1Req where
  wr := true
  addr := addr
  wdata := data
  wmask := mask

/-- Cold read miss, read hits, write hit and read-back. -/
def smokeSequence : List L1Req :=
  [doRead (makeAddr 0x01 0x0 0x0),
   doRead (makeAddr 0x01 0x0 0x0),
   doRead (makeAddr 0x01 0x0 0x2),
   doWrite (makeAddr 0x01 0x0 0x1) 0xDEADBEEF,
   doRead (makeAddr 0x01 0x0 0x1)]

/-- A write with a byte mask. -/
def byteMaskSequence : List L1Req :=
  [doRead (makeAddr 0x01 0x0 0x3),
   doWrite (makeAddr 0x01 0x0 0x3) 0xAABBCCDD 0b0101,
   doRead (makeAddr 0x01 0x0 0x3)]

/-- Both ways of set 5. -/
def multiWaySequence : List L1Req :=
  [doRead (makeAddr 0x02 0x5 0x0),
   doRead (makeAddr 0x03 0x5 0x0),
   doRead (makeAddr 0x02 0x5 0x0),
   doRead (makeAddr 0x03 0x5 0x0)]

/-- A dirty line is evicted. -/
def evictionSequence : List L1Req :=
  [doRead (makeAddr 0x10 0xA 0x0),
   doRead (makeAddr 0x20 0xA 0x0),
   doWrite (makeAddr 0x10 0xA 0x0) 0xCAFEBABE,
   doRead (makeAddr 0x20 0xA 0x0),
   doRead (makeAddr 0x30 0xA 0x0)]

/-- Reads across sets 0 to 7. -/
def sequentialSequence : List L1Req :=
  (List.range 8).map fun s => doRead (makeAddr 0xFF (BitVec.ofNat 4 s) 0x0)

/-- A write miss. -/
def writeAllocateSequence : List L1Req :=
  [doWrite (makeAddr 0xAB 0xC 0x0) 0x12345678,
   doRead (makeAddr 0xAB 0xC 0x0)]

/-- All directed sequences back-to-back. -/
def fullSequence : List L1Req :=
  smokeSequence ++ byteMaskSequence ++ multiWaySequence ++ evictionSequence ++
    sequentialSequence ++ writeAllocateSequence

end URiscV.Tb.L1cSequences
