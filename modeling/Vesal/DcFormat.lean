import Vesal.Checksum
import Vesal.Codec

/-!
# Frame formats

Headers and footers of `dc_format.h` and `dc_format.cc`. A deflate stream has neither.
-/

namespace Vesal

def kLz4FrameHeaderSize : Nat := 7
def kLz4FrameFooterSize : Nat := 4
def kZlibHeaderSize : Nat := 2
def kZlibFooterSize : Nat := 4

def kLz4FrameHeaderMagic : BitVec 32 := 0x184D2204
def kLz4FrameHeaderVersion : Nat := 1
def kLz4FrameHeaderMaxBlockSize : Nat := 4
def kLz4FrameHeaderBlockIndep : Nat := 1
def kLz4FrameHeaderBlockChecksum : Nat := 0
def kLz4FrameHeaderContentSizeFlag : Nat := 0
def kLz4FrameHeaderContentChecksum : Nat := 0
def kLz4FrameHeaderDictPresent : Nat := 0
def kLz4FrameFooterEndMark : BitVec 32 := 0

def store32 (v : BitVec 32) : List UInt8 :=
  (List.range 4).map (fun i => ⟨(v >>> (8 * i)).setWidth 8⟩)

def lz4FrameFlagDesc : UInt8 :=
  UInt8.ofNat (((kLz4FrameHeaderVersion &&& 0x03) <<< 6) + ((kLz4FrameHeaderBlockIndep &&& 0x01) <<< 5) +
    ((kLz4FrameHeaderBlockChecksum &&& 0x01) <<< 4) + ((kLz4FrameHeaderContentSizeFlag &&& 0x01) <<< 3) +
    ((kLz4FrameHeaderContentChecksum &&& 0x01) <<< 2) + (kLz4FrameHeaderDictPresent &&& 0x01))

def lz4FrameBlockDesc : UInt8 := UInt8.ofNat ((kLz4FrameHeaderMaxBlockSize &&& 0x07) <<< 4)

-- the hash of two bytes loads no word
def lz4FrameHeaderGen : List UInt8 :=
  store32 kLz4FrameHeaderMagic ++ [lz4FrameFlagDesc, lz4FrameBlockDesc,
    ⟨((xxHash [lz4FrameFlagDesc, lz4FrameBlockDesc]).getD 0 >>> 8).setWidth 8⟩]

def lz4FrameFooterGen : List UInt8 := store32 kLz4FrameFooterEndMark

def preCalcLz4HeaderCrc : BitVec 32 := computeCRC32 kCrc32cInitialValue lz4FrameHeaderGen
def preCalcLz4FooterCrc : BitVec 32 := computeCRC32 kCrc32cInitialValue lz4FrameFooterGen

def getZlibHeaderFlag : CodecCompLevel → UInt8
  | .kLevel1 | .kLevel2 => 0x01
  | .kLevel3 | .kLevel4 | .kLevel5 => 0x5E
  | .kLevel6 | .kLevel7 | .kLevel8 => 0x9C
  | _ => 0xDA

def zlibHeaderGen (level : CodecCompLevel) : List UInt8 := [0x78, getZlibHeaderFlag level]

/-- The Adler-32 of the data in network byte order. -/
def zlibFooterGen (adler32 : BitVec 32) : List UInt8 := (store32 adler32).reverse

/-- `header_size` and `footer_size` as `PrepareCommonReqData` sets them. -/
def headerFooterSize : CodecAlgorithm → Nat × Nat
  | .kLz4 => (kLz4FrameHeaderSize, kLz4FrameFooterSize)
  | .kZlib => (kZlibHeaderSize, kZlibFooterSize)
  | _ => (0, 0)

def frameHeader (algo : CodecAlgorithm) (level : CodecCompLevel) : List UInt8 :=
  match algo with
  | .kLz4 => lz4FrameHeaderGen
  | .kZlib => zlibHeaderGen level
  | _ => []

def frameFooter (algo : CodecAlgorithm) (adler32 : BitVec 32) : List UInt8 :=
  match algo with
  | .kLz4 => lz4FrameFooterGen
  | .kZlib => zlibFooterGen adler32
  | _ => []

end Vesal
