import Cantools.Codec.AscFidelity
import Cantools.Codec.Mf4Fidelity
import Cantools.Codec.Mf4Layout
import Cantools.Codec.BlfRoundTrip
import Cantools.Framework.TextFile

/-!
# Captures in files

`write_path` and `read_path` choose the codec by the extension of a path. A path is a string of
bytes, as on Linux; its extension is what the standard library says it is (`extension`).

The file operations are those of a parameter `Files`; what was written to a path is read back
from it if the path is that of a plain file (`Files.SoundAt`). The binary formats are put together
and taken apart by crates (`Crates`); what the codecs rely on in them is `Crates.Sound`, with the
exception of `ablf`, whose objects can be any. The reader of MF4 files is handed the path as text,
so it opens another file where the path is no text (`opened`).

A block that `mf4_rs` refuses to serialise leaves a begun MF4 file behind; the model leaves the
files as they were.
-/

namespace Cantools.Codec

open Chunks Program Utf8

/-! ### Formats -/

/-- Supported persisted capture formats. -/
inductive Format where
  | mf4
  | asc
  | blf
  deriving DecidableEq, Repr

/-- The bytes of a path. -/
abbrev Path := List UInt8

/-- `Path::file_name`: the last component, where it is a name. -/
def fileName (path : Path) : Option Path :=
  -- blank components and those of one dot are none
  match ((path.splitOn 0x2f).filter fun part => part ≠ [] ∧ part ≠ [0x2e]).getLast? with
  | some part => if part = [0x2e, 0x2e] then none else some part
  | none => none

/-- `Path::extension`: what is behind the last dot of the name. -/
def extension (path : Path) : Option Path := do
  let name ← fileName path
  -- a dot at the beginning marks a hidden file
  if (name.rdropWhile (· ≠ 0x2e)).length ≤ 1 then none else some (name.rtakeWhile (· ≠ 0x2e))

/-- The errors of the codecs with those of the files. -/
inductive PathError (ε : Type) where
  /-- I/O failed. -/
  | io (error : ε)
  /-- The path extension does not map to a supported format. -/
  | unknownFormat (path : String)
  /-- What the codec of the format reports. -/
  | codec (error : CodecError)

/-- Infer the format from a path extension. -/
def Format.fromPath {ε : Type} (path : Path) : Except (PathError ε) Format :=
  match ((extension path).bind decode).map (·.map Char.toLower) with
  | some ext =>
    if ext = "mf4".toList then .ok .mf4
    else if ext = "asc".toList then .ok .asc
    else if ext = "blf".toList then .ok .blf
    else .error (.unknownFormat (String.ofList (decodeLossy path)))
  | none => .error (.unknownFormat (String.ofList (decodeLossy path)))

example : (Format.fromPath (encode "/tmp/a.b/run.Asc/".toList) : Except (PathError Unit) Format)
    = .ok .asc := by rfl

/-! ### Files and crates -/

section

variable {σ ε : Type}

/-- The operations on files, in a state of all files. -/
structure Files (σ ε : Type) where
  /-- Open a file and read it to the end. -/
  read : σ → Path → Except ε (List UInt8)
  /-- Create or empty a file, write these bytes and flush. -/
  write : σ → Path → List UInt8 → Except ε Unit × σ

/-- What was written to the path is read back, and is no longer than a file can be. -/
structure Files.SoundAt (files : Files σ ε) (path : Path) : Prop where
  read_write : ∀ s bytes s', files.write s path bytes = (.ok (), s') →
    files.read s' path = .ok bytes
  length_lt : ∀ s bytes s', files.write s path bytes = (.ok (), s') → bytes.length < 2 ^ 64

/-- What the codecs take from elsewhere. -/
structure Crates (ε : Type) where
  float : Asc.FloatText
  /-- The error of a line that is no text. -/
  invalidData : ε
  mf4 : Mf4.Mf4Rs
  /-- The groups of an MF4 file, or the text of an `MdfError`. -/
  mdf : List UInt8 → Except String (List Mf4.ChannelGroup)
  /-- The text of an `MdfError` for an I/O error. -/
  mdfIo : ε → String
  /-- The records of a data block, cut by `mf4_rs`. -/
  records : List UInt8 → ℕ → List (List UInt8)
  /-- `BlfFile::from_reader`: whether the header is valid, and the objects. -/
  ablf : List UInt8 → Except ε (Bool × List Blf.ObjectTypes)

/-- What the codecs of logs and of MF4 files rely on: texts of times are read back, a file in which
the blocks of one channel group stand is opened as that group, and a block is cut into records of
the size asked for. -/
structure Crates.Sound (crates : Crates ε) : Prop where
  float : crates.float.Sound
  sized : crates.mf4.Sized
  total : crates.mf4.Total
  mdf : ∀ (file : List UInt8) (mdf : Mf4.Mdf), mdf.StandsIn crates.mf4 file →
    file.length = mdf.dataGroup.dataBlockAddr.toNat + 24 + mdf.data.length →
    '\x00' ∉ mdf.groupName.toList →
    crates.mdf file = .ok [{ name := .ok (some mdf.groupName)
                             samplesByteNr := mdf.channelGroup.samplesByteNr
                             dataBlocks := .ok [mdf.data] }]
  records : ∀ data, Mf4.recordSize ∣ data.length →
    crates.records data Mf4.recordSize = chunks Mf4.recordSize data

variable (crates : Crates ε)

/-- The codec's own result, among those of the path functions. -/
def ofCodec {α : Type} : Run CodecError α → Run (PathError ε) α
  | .ok a => .ok a
  | .error (.error e) => .error (.error (.codec e))
  | .error .panic => .error .panic

@[simp] theorem ofCodec_ok {α : Type} (a : α) : ofCodec (.ok a) = (.ok a : Run (PathError ε) α) :=
  rfl

/-- An I/O error ends the function. -/
def ofIo {α : Type} : Except ε α → Run (PathError ε) α
  | .ok a => .ok a
  | .error e => .error (.error (.io e))

@[simp] theorem ofIo_ok {α : Type} (a : α) : ofIo (.ok a : Except ε α) = .ok a := rfl

/-! ### Reading -/

/-- `read_asc`: line by line, so that a line is read before the next one is decoded. -/
def readAscBytes (bytes : List UInt8) : Run (PathError ε) ReadReport :=
  (byteLines bytes).foldlM (fun report line =>
    match line with
    | some line => ofCodec (orFail (Asc.readLine crates.float report line))
    | none => .error (.error (.io crates.invalidData))) Asc.noReport

/-- `read_blf` -/
def readBlfBytes (path : Path) (bytes : List UInt8) : Run (PathError ε) ReadReport := do
  let (isValid, objects) ← ofIo (crates.ablf bytes)
  ofCodec (Blf.readBlf (String.ofList (decodeLossy path)) isValid objects)

/-- `read_mf4`, of what opening and reading the file gave. -/
def readMf4Bytes (bytes : Except ε (List UInt8)) : Run CodecError ReadReport := do
  let bytes ← orFail (Mf4.mdfError (bytes.mapError crates.mdfIo))
  let groups ← orFail (Mf4.mdfError (crates.mdf bytes))
  Mf4.readMf4 crates.records groups

/-- The path that a reader of the format opens: that of MF4 files makes it text first. -/
def opened : Format → Path → Path
  | .mf4, path => encode (decodeLossy path)
  | .asc, path => path
  | .blf, path => path

/-- Read capture events from a file and infer the format from the extension. -/
def readPath (files : Files σ ε) (s : σ) (path : Path) : Run (PathError ε) ReadReport := do
  let format ← orFail (Format.fromPath path)
  match format with
  | .asc => do
    let bytes ← ofIo (files.read s path)
    readAscBytes crates bytes
  | .blf => do
    let bytes ← ofIo (files.read s path)
    readBlfBytes crates path bytes
  | .mf4 => ofCodec (readMf4Bytes crates (files.read s (opened .mf4 path)))

/-! ### Writing -/

/-- The bytes that a codec puts into a file. -/
def encodeAs (format : Format) (events : List CaptureEvent) :
    Run CodecError (List UInt8 × WriteReport) :=
  match format with
  | .asc =>
    let (log, report) := Asc.writeAsc crates.float events
    .ok (encode log, report)
  | .blf => Blf.writeBlf events
  | .mf4 => Mf4.writeFile crates.mf4 events

/-- Write capture events to a file and infer the format from the extension. -/
def writePath (files : Files σ ε) (s : σ) (path : Path) (events : List CaptureEvent) :
    Run (PathError ε) WriteReport × σ :=
  let encoded : Run (PathError ε) (List UInt8 × WriteReport) := do
    let format ← orFail (Format.fromPath path)
    ofCodec (encodeAs crates format events)
  match encoded with
  | .error e => (.error e, s)
  | .ok (bytes, report) =>
    match files.write s path bytes with
    | (.error e, s') => (.error (.error (.io e)), s')
    | (.ok (), s') => (.ok report, s')

end

/-! ### Crates for the plain layout -/

/-- An address that is a link of a block. -/
def linkAt (file : List UInt8) (addr : ℕ) : ℕ :=
  (LittleEndian.toU64 (slice file addr (addr + 8))).toNat

/-- The channel group of a file of plain blocks, with the data up to the end of the file. -/
def plainMdf (file : List UInt8) : Except String (List Mf4.ChannelGroup) :=
  let dataGroup := linkAt file (64 + 24)
  let channelGroup := linkAt file (dataGroup + 32)
  let name := (file.drop (linkAt file (channelGroup + 40) + 24)).takeWhile (· != 0)
  .ok [{ name := .ok (some (String.ofList (decodeLossy name)))
         samplesByteNr := LittleEndian.toU32 (slice file (channelGroup + 96) (channelGroup + 100))
         dataBlocks := .ok [file.drop (linkAt file (dataGroup + 40) + 24)] }]

/-- Crates that read and write the plain layout, at the first second. No file is one of BLF. -/
def plainCrates : Crates String where
  float := Asc.oneSecond
  invalidData := "stream did not contain valid UTF-8"
  mf4 := Mf4.plainCrate
  mdf := plainMdf
  mdfIo := id
  records data n := chunks n data
  ablf _ := .error "not a BLF file"

open Layout LittleEndian Mf4

theorem linkAt_eq {file : List UInt8} {addr : ℕ} {link : UInt64} (h : At file addr (ofU64 link)) :
    linkAt file addr = link.toNat := by
  have h_slice := h.slice_eq
  rw [length_ofU64] at h_slice
  rw [linkAt, h_slice, toU64_ofU64]

/-- A plain block is its header, its links and its data. -/
theorem plainBlock_eq_ok {id : String} {links : List UInt64} {data out : List UInt8}
    (h : plainBlock id links data = .ok out) :
    ∃ header, header.length = 24 ∧ out = (header :: (links.map ofU64 ++ [data])).flatten := by
  obtain ⟨header, h_header, h_out⟩ := bind_eq_ok_iff.mp h
  cases h_out
  refine ⟨header, length_plainHeader h_header, ?_⟩
  simp [List.flatMap_def]

/-- A text that ends with its first zero byte. -/
theorem takeWhile_text {name : List Char} (h : '\x00' ∉ name) (rest : List UInt8) :
    (encode name ++ 0 :: rest).takeWhile (· != 0) = encode name := by
  have h_all : ∀ b ∈ encode name, (b != 0) = true := by
    rw [← List.takeWhile_eq_self_iff, takeWhile_encode, takeWhile_of_notMem h]
  rw [List.takeWhile_append_of_pos h_all, List.takeWhile_cons_of_neg (by decide), List.append_nil]

theorem plainMdf_eq {file : List UInt8} {mdf : Mdf} (h : mdf.StandsIn plainCrate file)
    (h_len : file.length = mdf.dataGroup.dataBlockAddr.toNat + 24 + mdf.data.length)
    (h_name : '\x00' ∉ mdf.groupName.toList) :
    plainMdf file = .ok [{ name := .ok (some mdf.groupName)
                           samplesByteNr := mdf.channelGroup.samplesByteNr
                           dataBlocks := .ok [mdf.data] }] := by
  obtain ⟨id, h_id, -, bytes, h_header, h_headerAt⟩ := h.header
  obtain ⟨dataGroup, h_dataGroup, h_dataGroupAt⟩ := h.dataGroup
  obtain ⟨channelGroup, h_channelGroup, h_channelGroupAt⟩ := h.channelGroup
  obtain ⟨text, h_text, h_textAt⟩ := h.groupName
  cases h_id
  obtain ⟨hd, l_hd, rfl⟩ := plainBlock_eq_ok h_header
  obtain ⟨dg, l_dg, rfl⟩ := plainBlock_eq_ok h_dataGroup
  obtain ⟨cg, l_cg, rfl⟩ := plainBlock_eq_ok h_channelGroup
  obtain ⟨tx, l_tx, rfl⟩ := plainBlock_eq_ok h_text
  -- the links, each at its place in its block
  have a_dataGroup : linkAt file (64 + 24) = mdf.header.firstDgAddr.toNat :=
    linkAt_eq (h_headerAt.trans (at_flatten [hd] _ _ (by simp [l_hd])))
  have a_channelGroup : linkAt file (mdf.header.firstDgAddr.toNat + 32)
      = mdf.dataGroup.firstCgAddr.toNat :=
    linkAt_eq (h_dataGroupAt.trans (at_flatten [dg, _] _ _ (by simp [l_dg])))
  have a_data : linkAt file (mdf.header.firstDgAddr.toNat + 40)
      = mdf.dataGroup.dataBlockAddr.toNat :=
    linkAt_eq (h_dataGroupAt.trans (at_flatten [dg, _, _] _ _ (by simp [l_dg])))
  have a_name : linkAt file (mdf.dataGroup.firstCgAddr.toNat + 40)
      = mdf.channelGroup.acqNameAddr.toNat :=
    linkAt_eq (h_channelGroupAt.trans (at_flatten [cg, _, _] _ _ (by simp [l_cg])))
  -- what the links lead to
  have r_samples : slice file (mdf.dataGroup.firstCgAddr.toNat + 96)
      (mdf.dataGroup.firstCgAddr.toNat + 100) = ofU32 mdf.channelGroup.samplesByteNr := by
    have h_data := h_channelGroupAt.trans
      (at_flatten [cg, _, _, _, _, _, _] _ [] (by simp [l_cg] : 72 = _))
    -- three fields of eight bytes are in front
    exact h_data.front.behind.slice_eq
  have r_name : (file.drop (mdf.channelGroup.acqNameAddr.toNat + 24)).takeWhile (· != 0)
      = encode mdf.groupName.toList := by
    have h_at : At file (mdf.channelGroup.acqNameAddr.toNat + 24)
        (encode mdf.groupName.toList ++ [0]) :=
      h_textAt.trans (at_flatten [tx] _ [] (by simp [l_tx]))
    obtain ⟨rest, h_rest⟩ := h_at
    rw [← h_rest, List.append_assoc]
    exact takeWhile_text h_name rest
  have r_data : file.drop (mdf.dataGroup.dataBlockAddr.toNat + 24) = mdf.data := by
    refine (List.IsPrefix.eq_of_length h.data ?_).symm
    rw [List.length_drop, h_len]
    omega
  simp only [plainMdf, a_dataGroup, a_channelGroup, a_data, a_name, r_samples, r_name, r_data,
    decodeLossy_encode, String.ofList_toList, toU32_ofU32]

theorem plainCrates_sound : plainCrates.Sound where
  float := Asc.oneSecond_sound
  sized := plainCrate_sized
  total := plainCrate_total
  mdf _ _ h_stands h_len h_name := plainMdf_eq h_stands h_len h_name
  records _ _ := rfl

/-- A disk that keeps what is written, up to the length a file can have. -/
def disk : Files (Path → Option (List UInt8)) String where
  read s path :=
    match s path with
    | some bytes => .ok bytes
    | none => .error "no such file"
  write s path bytes :=
    if bytes.length < 2 ^ 64 then
      (.ok (), fun path' => if path' = path then some bytes else s path')
    else (.error "file too large", s)

theorem disk_write {s s' : Path → Option (List UInt8)} {path : Path} {bytes : List UInt8}
    (h : disk.write s path bytes = (.ok (), s')) :
    bytes.length < 2 ^ 64 ∧ s' = fun path' => if path' = path then some bytes else s path' := by
  simp only [disk] at h
  split at h
  · next h_lt =>
    cases h
    exact ⟨h_lt, rfl⟩
  · cases h

theorem disk_soundAt (path : Path) : disk.SoundAt path where
  read_write s bytes s' h := by
    rw [(disk_write h).2]
    simp [disk]
  length_lt s bytes s' h := (disk_write h).1

end Cantools.Codec
