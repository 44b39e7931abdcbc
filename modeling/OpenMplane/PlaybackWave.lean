import OpenMplane.CaptureWave
import OpenMplane.CryptData
import OpenMplane.Sha1

/-!
# Encapsulated playback files

`PlaybackWave` writes a playback file as a header with the hash of its name and
blocks of data that are compressed where that helps and always enciphered, and
reads such a file back block by block.  The compression is that of a library
whose functions are parameters here; memory that the wrapper asks for is there,
but a function that writes past it has no result.
-/

namespace OpenMplane

open ByteTransfer

/-- The functions of the compression library, with their return code and what
they write. -/
structure MiniLzo where
  lzo1x_1_compress : List UInt8 → Int × List UInt8
  lzo1x_decompress : List UInt8 → Int × List UInt8

def LZO_E_OK : Int := 0

structure Lzo where
  mDecompressionMinSize : Nat

namespace Lzo

def compressedSize (uncompressedSize : Nat) : Nat :=
  (uncompressedSize + uncompressedSize / 16 + 64 + 3) % 2 ^ 32

def uncompressedSize (lzo : Lzo) (compressedSize : Nat) : Nat :=
  let compressedSize := if 67 < compressedSize then compressedSize - (64 + 3) else compressedSize
  let decompressSize := 8 * (compressedSize * 16 % 2 ^ 32 / 17) % 2 ^ 32
  if decompressSize < lzo.mDecompressionMinSize then lzo.mDecompressionMinSize else decompressSize

/-- `Lzo::compress`, or nothing when the buffer overflows. -/
def compress (miniLzo : MiniLzo) (inData : List UInt8) : Option (Bool × List UInt8) :=
  let inDataSize := numBytes inData
  let (rc, outData) := miniLzo.lzo1x_1_compress (inData.take inDataSize)
  if compressedSize inDataSize < outData.length then none
  else some (decide (rc = LZO_E_OK), outData)

/-- `Lzo::decompress`, or nothing when the buffer overflows. -/
def decompress (miniLzo : MiniLzo) (lzo : Lzo) (inData : List UInt8) :
    Option (Bool × List UInt8) :=
  let inDataSize := numBytes inData
  let (rc, outData) := miniLzo.lzo1x_decompress (inData.take inDataSize)
  if lzo.uncompressedSize inDataSize < outData.length then none
  else some (decide (rc = LZO_E_OK), outData)

end Lzo

structure PlaybackWaveHeader extends WaveFileHeader where
  mSha1 : List UInt8

namespace PlaybackWaveHeader

def UNUSED_SIZE : Nat := 1

def SAMPLE_RATE_SIZE : Nat := 3

def PLAYBACK_HEAD_LEN : Nat := Sha1.SHA1_SIZE + UNUSED_SIZE + SAMPLE_RATE_SIZE

def new : PlaybackWaveHeader := ⟨.new, List.replicate Sha1.SHA1_SIZE 0⟩

def getHeaderSize : Nat := PLAYBACK_HEAD_LEN + WaveFileHeader.HEAD_BYTES

def getBlockHeaderSize : Nat := WaveFileHeader.BLOCK_HEAD_BYTES

/-- `PlaybackWaveHeader::processHeader`: its result and the header. -/
def processHeader (header : PlaybackWaveHeader) (data : List UInt8) :
    Bool × PlaybackWaveHeader :=
  let (ok, common, data) := header.toWaveFileHeader.processHeader data
  let header := { header with toWaveFileHeader := common }
  if ok = false then (false, header)
  else if common.mType ≠ .PLAYBACK then
    (false, { header with toWaveFileHeader := common.setError "Not a playback file" })
  else if numBytes data < PLAYBACK_HEAD_LEN then
    (true, { header with toWaveFileHeader := common.setError "Invalid header data" })
  else (true, { header with mSha1 := data.take Sha1.SHA1_SIZE })

/-- `PlaybackWaveHeader::createHeader`: its result, the header and the data
with the bytes of the header behind it. -/
def createHeader (header : PlaybackWaveHeader) (data sha1 : List UInt8) :
    Bool × PlaybackWaveHeader × List UInt8 :=
  if sha1.length ≠ Sha1.SHA1_SIZE then
    (false, { header with toWaveFileHeader := header.toWaveFileHeader.setError "Invalid SHA1" },
      data)
  else
    let data := WaveFileHeader.createHeader data .PLAYBACK PLAYBACK_HEAD_LEN ++ sha1
    (true, header, append24bit (appendByte data 0x00) 0x00dead)

end PlaybackWaveHeader

/-- The file that is read: its path, the bytes from the position on and the
count of those left. -/
structure EncapFile where
  mEncapsulatedFilepath : String
  mInFile : List UInt8
  mBytesLeft : Nat

namespace EncapFile

/-- `EncapFile::load` of a file with this content. -/
def load (path : String) (content : List UInt8) : EncapFile := ⟨path, content, content.length⟩

/-- `EncapFile::readFile`: its result, the bytes and the file. -/
def readFile (file : EncapFile) (numBytes : Nat) : Bool × List UInt8 × EncapFile :=
  if file.mEncapsulatedFilepath = "" then (false, [], file)
  else if file.mBytesLeft % 2 ^ 32 < numBytes then (false, [], file)
  else
    (decide (numBytes ≤ file.mInFile.length), file.mInFile.take numBytes,
      { file with
        mInFile := file.mInFile.drop numBytes
        mBytesLeft := file.mBytesLeft - numBytes })

def eof (file : EncapFile) : Bool :=
  decide (file.mEncapsulatedFilepath = "") || decide (file.mBytesLeft = 0)

end EncapFile

/-- The parts of a path. -/
structure PlaybackFileInfo where
  mFilepath : String
  mPath : String
  mSep : String
  mFile : String

namespace PlaybackFileInfo

def isSeparator (letter : Char) : Bool := letter == '/' || letter == '\\'

def removePath (filepath : String) : PlaybackFileInfo :=
  let letters := filepath.toList
  match letters.reverse.findIdx? isSeparator with
  | none => ⟨filepath, "", "", filepath⟩
  | some back =>
      let pos := letters.length - 1 - back
      ⟨filepath, String.ofList (letters.take pos), String.ofList ((letters.drop pos).take 1),
        String.ofList (letters.drop (pos + 1))⟩

end PlaybackFileInfo

structure PlaybackWave where
  mHeader : PlaybackWaveHeader
  mLzo : Lzo
  mCrypt : Crypt
  mError : String
  mEncapFile : Option EncapFile
  mFileInfo : Option PlaybackFileInfo

namespace PlaybackWave

def BLOCK_SIZE : Nat := 8192

/-- The constructor, with the license key of the `IKey`. -/
def new (licenseKey : Fin 4 → UInt32) : PlaybackWave :=
  ⟨.new, ⟨BLOCK_SIZE⟩, ⟨licenseKey⟩, "", none, none⟩

def setError (wave : PlaybackWave) (error : String) : PlaybackWave :=
  { wave with mError := addError wave.mError error }

/-- The error of the header is taken over, which clears it there. -/
def headerFailed (wave : PlaybackWave) (header : PlaybackWaveHeader) : PlaybackWave :=
  { wave with
    mHeader := { header with mError := "" }
    mError := addError wave.mError header.mError }

section Encapsulate

variable (miniLzo : MiniLzo) (wave : PlaybackWave)

/-- `PlaybackWave::encapsulateBlock`, which returns true. -/
def encapsulateBlock (block outData : List UInt8) : Option (List UInt8) :=
  match Lzo.compress miniLzo block with
  | none => none
  | some (ok, compressedData) =>
      let compressed := ok && decide (compressedData.length < numBytes block)
      let encryptedData :=
        wave.mCrypt.encryptData (if compressed then compressedData else block)
      some (WaveFileHeader.createBlockHeader outData ⟨compressed, true⟩ encryptedData.length ++
        encryptedData)

/-- The loop over the full blocks, and what is left. -/
def encapsulateBlocks (bytesLeft : Nat) (data outData : List UInt8) : Option (List UInt8) :=
  if BLOCK_SIZE ≤ bytesLeft then
    match encapsulateBlock miniLzo wave (data.take BLOCK_SIZE) outData with
    | none => none
    | some outData =>
        encapsulateBlocks (bytesLeft - BLOCK_SIZE) (data.drop BLOCK_SIZE) outData
  else if 0 < bytesLeft then encapsulateBlock miniLzo wave data outData
  else some outData
termination_by bytesLeft
decreasing_by
  rw [BLOCK_SIZE] at *
  omega

/-- `PlaybackWave::encapsulate` into an empty vector. -/
def encapsulate (inFilename : String) (inData : List UInt8) :
    Option (Bool × List UInt8 × PlaybackWave) :=
  let sha1 := Sha1.getHash (Sha1.stringBytes inFilename)
  let (_, mHeader, outData) := wave.mHeader.createHeader [] sha1
  match encapsulateBlocks miniLzo wave (numBytes inData) inData outData with
  | none => none
  | some outData => some (true, outData, { wave with mHeader })

end Encapsulate

section Load

/-- `PlaybackWave::loadEncapsulated` of a path, with the files there are. -/
def loadEncapsulated (files : String → Option (List UInt8)) (filepath : String)
    (wave : PlaybackWave) : Bool × PlaybackWave :=
  let info := PlaybackFileInfo.removePath filepath
  let wave := { wave with mFileInfo := some info, mEncapFile := none }
  match files info.mFilepath with
  | none => (false, wave.setError ("Unable to open '" ++ info.mFilepath ++ "' for reading"))
  | some content =>
      let (ok, bytes, encapFile) :=
        (EncapFile.load info.mFilepath content).readFile PlaybackWaveHeader.getHeaderSize
      if ok = false then (false, wave.setError "Unable to read header")
      else
        let (ok, header) := wave.mHeader.processHeader bytes
        if ok = false then (false, wave.headerFailed header)
        else
          let wave := { wave with mHeader := header }
          if Sha1.getHashString info.mFile ≠ Sha1.hashToString header.mSha1 then
            (false, wave.setError "File SHA1 does not match expected value")
          else (true, { wave with mEncapFile := some encapFile })

/-- The data of a block, the error, or nothing when a buffer overflows. -/
def restoreBlock (miniLzo : MiniLzo) (wave : PlaybackWave) (type : WaveBlockType)
    (block : List UInt8) : Option (Except String (List UInt8)) :=
  match if type.encrypted then wave.mCrypt.decryptData block else some block with
  | none => some (.error "Unable to decrypt block")
  | some decrypted =>
      if type.compressed then
        match wave.mLzo.decompress miniLzo decrypted with
        | none => none
        | some (false, _) => some (.error "Unable to decompress block")
        | some (true, decompressed) => some (.ok decompressed)
      else some (.ok decrypted)

/-- `PlaybackWave::loadNextBlock`: its result, the data, the end of the file
and the object. -/
def loadNextBlock (miniLzo : MiniLzo) (wave : PlaybackWave) (data : List UInt8) (eof : Bool) :
    Option (Bool × List UInt8 × Bool × PlaybackWave) :=
  match wave.mEncapFile with
  | none =>
      some (false, data, eof,
        wave.setError "Attempting to load data without specifying input filename")
  | some file =>
      if file.eof then some (true, data, true, wave)
      else
        let (ok, header, file) := file.readFile PlaybackWaveHeader.getBlockHeaderSize
        let wave := { wave with mEncapFile := some file }
        if ok = false then some (false, data, eof, wave.setError "Unable to read block header")
        else
          let (ok, common, _) := wave.mHeader.toWaveFileHeader.processBlockHeader header
          let mHeader := { wave.mHeader with toWaveFileHeader := common }
          if ok = false then some (false, data, eof, wave.headerFailed mHeader)
          else
            let (ok, block, file) := file.readFile common.mBlockLength
            let wave := { wave with mHeader, mEncapFile := some file }
            if ok = false then some (false, data, eof, wave.setError "Unable to read block")
            else
              match wave.restoreBlock miniLzo common.mBlockType block with
              | none => none
              | some (.error error) => some (false, data, eof, wave.setError error)
              | some (.ok restored) => some (true, data ++ restored, eof || file.eof, wave)

end Load

end PlaybackWave

end OpenMplane
