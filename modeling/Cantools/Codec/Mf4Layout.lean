import Cantools.Codec.Mf4RoundTrip
import Cantools.Framework.Layout

/-!
# The blocks of an MF4 file

`write_mf4` computes the address of every block before it writes the first one: most from the
sizes the format gives its blocks, the others from texts and a header it has serialised already.
A reader only follows these addresses. `writeFile_standsIn` shows that they are right: from the
start of the file a reader meets the header, the data group, the channel group, the seven channels
one after the other and the data, each at the address the block before it names.

The channels describe where the fields of a record are, which `encode_record` decides on its own.
`mf4_file_channels` brings the two together.

The blocks are serialised by the `mf4_rs` crate (`Mf4Rs`), of which the sizes are used (`Sized`).
Of the fields that keep their default the model has none.
-/

namespace Cantools.Codec.Mf4

open Chunks Layout LittleEndian Program

/-! ### Blocks -/

/-- The types of channel data that are used. -/
inductive DataType where
  | unsignedIntegerLE
  | stringLatin1
  | byteArray
  deriving DecidableEq, Repr

/-- The header of a block. -/
structure BlockHeader where
  id : String
  reserved0 : UInt32
  blockLen : UInt64
  linksNr : UInt64

structure HeaderBlock where
  firstDgAddr : UInt64
  commentAddr : UInt64
  absTime : UInt64
  timeFlags : UInt8

structure ChannelGroupBlock where
  firstChAddr : UInt64
  acqNameAddr : UInt64
  commentAddr : UInt64
  cyclesNr : UInt64
  samplesByteNr : UInt32

structure DataGroupBlock where
  firstCgAddr : UInt64
  dataBlockAddr : UInt64

/-- A channel; its six limits are all `0.0` and not in the model. -/
structure ChannelBlock where
  header : BlockHeader
  nextChAddr : UInt64
  componentAddr : UInt64
  nameAddr : UInt64
  sourceAddr : UInt64
  conversionAddr : UInt64
  data : UInt64
  unitAddr : UInt64
  commentAddr : UInt64
  channelType : UInt8
  syncType : UInt8
  dataType : DataType
  bitOffset : UInt8
  byteOffset : UInt32
  bitCount : UInt32
  flags : UInt32
  posInvalidationBit : UInt32
  precision : UInt8
  reserved1 : UInt8
  attachmentNr : UInt16

/-- The serializers of `mf4_rs`, with the texts of the errors they may end in. -/
structure Mf4Rs where
  /-- `IdentificationBlock::default().to_bytes()` -/
  identification : Except String (List UInt8)
  /-- `HeaderBlock::default()` -/
  headerDefault : HeaderBlock
  /-- `to_bytes()` of the header block, with the other fields as in the default one. -/
  header : HeaderBlock → Except String (List UInt8)
  /-- `TextBlock::new(text).to_bytes()` -/
  text : String → Except String (List UInt8)
  channelGroup : ChannelGroupBlock → Except String (List UInt8)
  dataGroup : DataGroupBlock → Except String (List UInt8)
  channel : ChannelBlock → Except String (List UInt8)
  blockHeader : BlockHeader → Except String (List UInt8)

/-! ### Writing -/

/-- The description of a channel: its name, its place in the record and its type. -/
structure ChannelDef where
  name : String
  byteOffset : UInt32
  bitCount : UInt32
  dataType : DataType
  deriving DecidableEq, Repr

/-- `channel_defs` -/
def channelDefs : List ChannelDef :=
  [⟨"timestamp_ns", 0, 64, .unsignedIntegerLE⟩, ⟨"can_id", 8, 32, .unsignedIntegerLE⟩,
    ⟨"flags", 12, 16, .unsignedIntegerLE⟩, ⟨"interface_index", 14, 32, .unsignedIntegerLE⟩,
    ⟨"data_len", 18, 8, .unsignedIntegerLE⟩, ⟨"interface_name", 20, 256, .stringLatin1⟩,
    ⟨"data", 52, 512, .byteArray⟩]

/-- The block of a channel at an address, with the address of the next one. -/
def channelBlock (channel : ChannelDef) (currentAddr nextChAddr : UInt64) : ChannelBlock where
  header := { id := "##CN", reserved0 := 0, blockLen := 160, linksNr := 8 }
  nextChAddr
  componentAddr := 0
  nameAddr := currentAddr + 160
  sourceAddr := 0
  conversionAddr := 0
  data := 0
  unitAddr := 0
  commentAddr := 0
  channelType := 0
  syncType := if channel.name = "timestamp_ns" then 1 else 0
  dataType := channel.dataType
  bitOffset := 0
  byteOffset := channel.byteOffset
  bitCount := channel.bitCount
  flags := 0
  posInvalidationBit := 0
  precision := 0
  reserved1 := 0
  attachmentNr := 0

section Write

variable (crate : Mf4Rs)

/-- The channel loop of `write_mf4`: the channels still to come, behind `channelDataSize` bytes of
channels. Returns the bytes of every channel and of its name, and the size of all channels. -/
def channelsFrom (firstChannelAddr : UInt64) : UInt64 → List ChannelDef →
    Except CodecError (List (List UInt8 × List UInt8) × UInt64)
  | channelDataSize, [] => pure ([], channelDataSize)
  | channelDataSize, channel :: channels => do
    let nameBytes ← mdfError (crate.text channel.name)
    let currentAddr := firstChannelAddr + channelDataSize
    -- the last channel has no next one
    let nextChAddr :=
      if channels ≠ [] then currentAddr + 160 + nameBytes.length.toUInt64 else 0
    let bytes ← mdfError (crate.channel (channelBlock channel currentAddr nextChAddr))
    let (later, size) ← channelsFrom firstChannelAddr
      (channelDataSize + (bytes.length.toUInt64 + nameBytes.length.toUInt64)) channels
    pure ((bytes, nameBytes) :: later, size)

/-- `write_mf4`: the bytes of the file. -/
def writeFile (events : List CaptureEvent) : Run CodecError (List UInt8 × WriteReport) := do
  let headerStubBytes ← orFail (mdfError (crate.header crate.headerDefault))
  let idBytes ← orFail (mdfError crate.identification)
  let commentBytes ← orFail (mdfError (crate.text "cantools-rs capture-focused MF4 export"))
  let groupNameBytes ← orFail (mdfError (crate.text channelGroupName))
  let channelGroupAddr := idBytes.length.toUInt64 + headerStubBytes.length.toUInt64
  let dataGroupAddr := channelGroupAddr + 104
  let commentAddr := dataGroupAddr + 64
  let groupNameAddr := commentAddr + commentBytes.length.toUInt64
  let firstChannelAddr := groupNameAddr + groupNameBytes.length.toUInt64
  let (channelBytes, channelDataSize) ← orFail (channelsFrom crate firstChannelAddr 0 channelDefs)
  let dataAddr := firstChannelAddr + channelDataSize
  let header : HeaderBlock :=
    { firstDgAddr := dataGroupAddr
      commentAddr
      absTime := (events.head?.map fun event => timestampToNs event.timestamp).getD 0
      timeFlags := 2 }
  let channelGroup : ChannelGroupBlock :=
    { firstChAddr := firstChannelAddr
      acqNameAddr := groupNameAddr
      commentAddr
      cyclesNr := events.length.toUInt64
      samplesByteNr := recordSize.toUInt32 }
  let dataGroup : DataGroupBlock := { firstCgAddr := channelGroupAddr, dataBlockAddr := dataAddr }
  let (payload, notes) ← writePayload 0 events
  let headerBytes ← orFail (mdfError (crate.header header))
  let channelGroupBytes ← orFail (mdfError (crate.channelGroup channelGroup))
  let dataGroupBytes ← orFail (mdfError (crate.dataGroup dataGroup))
  let dataHeader : BlockHeader :=
    { id := "##DT", reserved0 := 0, blockLen := (24 + payload.length).toUInt64, linksNr := 0 }
  let dataHeaderBytes ← orFail (mdfError (crate.blockHeader dataHeader))
  pure ([idBytes, headerBytes, channelGroupBytes, dataGroupBytes, commentBytes, groupNameBytes,
    channelBytes.flatMap fun channel => channel.1 ++ channel.2, dataHeaderBytes,
    payload].flatten, { notes })

end Write

/-! ### Following the links -/

/-- The sizes the format gives its blocks; a header is as long as any other. -/
structure Mf4Rs.Sized (crate : Mf4Rs) : Prop where
  header : ∀ {block block' bytes bytes'}, crate.header block = .ok bytes →
    crate.header block' = .ok bytes' → bytes.length = bytes'.length
  channelGroup : ∀ {block bytes}, crate.channelGroup block = .ok bytes → bytes.length = 104
  dataGroup : ∀ {block bytes}, crate.dataGroup block = .ok bytes → bytes.length = 64
  channel : ∀ {block bytes}, crate.channel block = .ok bytes → bytes.length = 160
  blockHeader : ∀ {block bytes}, crate.blockHeader block = .ok bytes → bytes.length = 24

/-- The bytes of a block stand in the file at this address. -/
def Stands {β : Type} (toBytes : β → Except String (List UInt8)) (file : List UInt8) (addr : ℕ)
    (block : β) : Prop :=
  ∃ bytes, toBytes block = .ok bytes ∧ At file addr bytes

/-- A channel as a reader meets it: its block, and its name where the block says. -/
def ChannelStands (crate : Mf4Rs) (file : List UInt8) (addr : ℕ)
    (channel : String × ChannelBlock) : Prop :=
  Stands crate.channel file addr channel.2 ∧
    Stands crate.text file channel.2.nameAddr.toNat channel.1

/-- What a channel says about itself. -/
def describes (channel : String × ChannelBlock) : ChannelDef where
  name := channel.1
  byteOffset := channel.2.byteOffset
  bitCount := channel.2.bitCount
  dataType := channel.2.dataType

/-- What is met in a file with one data group of one channel group. -/
structure Mdf where
  header : HeaderBlock
  comment : String
  dataGroup : DataGroupBlock
  channelGroup : ChannelGroupBlock
  groupName : String
  channels : List (String × ChannelBlock)
  data : List UInt8

/-- Each part is met where the parts before it say; the header is behind the identification. -/
structure Mdf.StandsIn (crate : Mf4Rs) (mdf : Mdf) (file : List UInt8) : Prop where
  header : ∃ id, crate.identification = .ok id ∧ At file 0 id ∧
    Stands crate.header file id.length mdf.header
  comment : Stands crate.text file mdf.header.commentAddr.toNat mdf.comment
  dataGroup : Stands crate.dataGroup file mdf.header.firstDgAddr.toNat mdf.dataGroup
  channelGroup : Stands crate.channelGroup file mdf.dataGroup.firstCgAddr.toNat mdf.channelGroup
  groupName : Stands crate.text file mdf.channelGroup.acqNameAddr.toNat mdf.groupName
  groupComment : Stands crate.text file mdf.channelGroup.commentAddr.toNat mdf.comment
  channels : Chain (ChannelStands crate file) (·.2.nextChAddr.toNat)
    mdf.channelGroup.firstChAddr.toNat mdf.channels
  dataHeader : Stands crate.blockHeader file mdf.dataGroup.dataBlockAddr.toNat
    { id := "##DT", reserved0 := 0, blockLen := (24 + mdf.data.length).toUInt64, linksNr := 0 }
  data : At file (mdf.dataGroup.dataBlockAddr.toNat + 24) mdf.data

variable {crate : Mf4Rs} {file : List UInt8}

theorem mdfError_eq_ok_iff {α : Type} {x : Except String α} {a : α} :
    mdfError x = .ok a ↔ x = .ok a := by
  cases x <;> simp [mdfError]

/-- An address behind a number of bytes, where it does not wrap. -/
theorem toNat_add_length {addr : UInt64} {k : ℕ} (n : ℕ) (h : addr.toNat = k)
    (h_lt : k + n < 2 ^ 64) : (addr + n.toUInt64).toNat = k + n := by
  rw [UInt64.toNat_add, h, Nat.toUInt64_eq, UInt64.toNat_ofNat']
  omega

/-- **The channels.** Where the channels of the loop are put into the file one after the other,
they are met one after the other, from the address of the first to the end of the chain. -/
theorem channelsFrom_chain (h_sized : crate.Sized) (h_file : file.length < 2 ^ 64)
    {firstChannelAddr size total : UInt64} {addr : ℕ} (h_pos : 0 < addr)
    (h_addr : (firstChannelAddr + size).toNat = addr) {defs : List ChannelDef}
    {channels : List (List UInt8 × List UInt8)}
    (h : channelsFrom crate firstChannelAddr size defs = .ok (channels, total))
    (h_at : At file addr (channels.flatMap fun channel => channel.1 ++ channel.2)) :
    (firstChannelAddr + total).toNat
        = addr + (channels.flatMap fun channel => channel.1 ++ channel.2).length ∧
      ∃ nodes, nodes.map describes = defs ∧ Chain (ChannelStands crate file)
        (·.2.nextChAddr.toNat) (if defs ≠ [] then addr else 0) nodes := by
  -- on the channels still to come; `size` is what was put into the file before them
  induction defs generalizing size addr channels with
  | nil =>
    cases h
    exact ⟨h_addr, [], rfl, .nil⟩
  | cons channel defs ih =>
    simp only [channelsFrom, bind_eq_ok_iff, mdfError_eq_ok_iff] at h
    obtain ⟨nameBytes, h_name, bytes, h_bytes, ⟨later, size'⟩, h_later, h_eq⟩ := h
    cases h_eq
    have h_len := h_sized.channel h_bytes
    rw [List.flatMap_cons] at h_at
    -- the block, its name behind it, and the other channels behind both
    have h_block := h_at.front.front
    have h_nameAt := h_at.front.behind
    have h_laterAt := h_at.behind
    rw [h_len] at h_nameAt
    rw [List.length_append, h_len, ← Nat.add_assoc] at h_laterAt
    have h_in : addr + 160 + nameBytes.length ≤ file.length := by
      have h_ne : bytes ++ nameBytes ≠ [] :=
        List.ne_nil_of_length_pos (by rw [List.length_append, h_len]; omega)
      have h_le := h_at.front.le_length h_ne
      rwa [List.length_append, h_len, ← Nat.add_assoc] at h_le
    have a_name : (firstChannelAddr + size + 160).toNat = addr + 160 :=
      toNat_add_length 160 h_addr (by omega)
    have a_next : (firstChannelAddr + size + 160 + nameBytes.length.toUInt64).toNat
        = addr + 160 + nameBytes.length := toNat_add_length _ a_name (by omega)
    have a_later : (firstChannelAddr + (size + (bytes.length.toUInt64 +
        nameBytes.length.toUInt64))).toNat = addr + 160 + nameBytes.length := by
      rw [h_len, ← UInt64.add_assoc, ← UInt64.add_assoc]
      exact a_next
    obtain ⟨h_total, nodes, h_nodes, h_chain⟩ := ih (by omega) a_later h_later h_laterAt
    refine ⟨?_, (channel.name, _) :: nodes, ?_,
      .cons (Nat.ne_of_gt h_pos) ⟨⟨bytes, h_bytes, h_block⟩, nameBytes, h_name, ?_⟩ ?_⟩
    · rw [h_total]
      simp only [List.flatMap_cons, List.length_append, h_len]
      omega
    · rw [List.map_cons, h_nodes]
      rfl
    · show At file (firstChannelAddr + size + 160).toNat nameBytes
      rwa [a_name]
    · -- the address of the next channel is where this one and its name end
      have h_next : (if defs ≠ [] then firstChannelAddr + size + 160 + nameBytes.length.toUInt64
          else 0).toNat = if defs ≠ [] then addr + 160 + nameBytes.length else 0 := by
        split
        · exact a_next
        · rfl
      show Chain _ _ (ite _ _ _ : UInt64).toNat nodes
      rw [h_next]
      exact h_chain

/-- **The links are right.** In a written file a reader that follows the addresses meets the
blocks of a capture, with one record for every event behind them up to the end of the file. -/
theorem writeFile_standsIn (h_sized : crate.Sized) (h_lt : file.length < 2 ^ 64)
    {events : List CaptureEvent} {report : WriteReport}
    (h : writeFile crate events = .ok (file, report)) :
    ∃ mdf : Mdf, mdf.StandsIn crate file ∧
      mdf.groupName = channelGroupName ∧
      mdf.channels.map describes = channelDefs ∧
      mdf.channelGroup.samplesByteNr = recordSize.toUInt32 ∧
      mdf.channelGroup.cyclesNr.toNat = events.length ∧
      mdf.data = (events.map recordBytes).flatten ∧
      file.length = mdf.dataGroup.dataBlockAddr.toNat + 24 + mdf.data.length := by
  simp only [writeFile, writePayload_eq, bind_eq_ok_iff, orFail_eq_ok_iff, mdfError_eq_ok_iff] at h
  obtain ⟨stub, h_stub, id, h_id, comment, h_comment, groupName, h_groupName, ⟨channels, size⟩,
    h_channels, ⟨payload, notes⟩, h_payload, header, h_header, channelGroup, h_channelGroup,
    dataGroup, h_dataGroup, dataHeader, h_dataHeader, h_file⟩ := h
  -- the file is its blocks, one behind the other; each has the size of its kind
  cases h_payload
  cases h_file
  have l_header := h_sized.header h_header h_stub
  have l_channelGroup := h_sized.channelGroup h_channelGroup
  have l_dataGroup := h_sized.dataGroup h_dataGroup
  have l_dataHeader := h_sized.blockHeader h_dataHeader
  have l_data : (events.map recordBytes).flatten.length = 116 * events.length := by
    rw [length_flatten_of_length length_of_mem_records, List.length_map]
    rfl
  have l_file := h_lt
  simp only [List.flatten_cons, List.flatten_nil, List.length_append, List.length_nil, l_header,
    l_channelGroup, l_dataGroup, l_dataHeader, l_data] at l_file
  -- no address wraps, and each is the length of what is written before its block
  have a_id : id.length.toUInt64.toNat = id.length := by
    rw [Nat.toUInt64_eq, UInt64.toNat_ofNat', Nat.mod_eq_of_lt (by omega)]
  have a_channelGroup := toNat_add_length stub.length a_id (by omega)
  have a_dataGroup := toNat_add_length 104 a_channelGroup (by omega)
  have a_comment := toNat_add_length 64 a_dataGroup (by omega)
  have a_groupName := toNat_add_length comment.length a_comment (by omega)
  have a_channels := toNat_add_length groupName.length a_groupName (by omega)
  -- the channels are a chain from the end of the group name to the data
  obtain ⟨a_data, nodes, h_nodes, h_chain⟩ := channelsFrom_chain h_sized h_lt
    (Nat.add_pos_left (by omega) _) ((congrArg _ (UInt64.add_zero _)).trans a_channels) h_channels
    (at_flatten [id, header, channelGroup, dataGroup, comment, groupName] _
      [dataHeader, (events.map recordBytes).flatten]
      (by simp [l_header, l_channelGroup, l_dataGroup]; omega))
  rw [if_pos (by decide), ← a_channels] at h_chain
  -- every block that has an address stands behind those before it
  refine ⟨⟨_, _, _, _, _, nodes, (events.map recordBytes).flatten⟩,
    ⟨⟨id, h_id, at_flatten [] _ _ rfl, header, h_header, at_flatten [id] _ _ (by simp)⟩,
      ⟨comment, h_comment, at_flatten [_, _, _, _] _ _ (a_comment.trans ?_)⟩,
      ⟨dataGroup, h_dataGroup, at_flatten [_, _, _] _ _ (a_dataGroup.trans ?_)⟩,
      ⟨channelGroup, h_channelGroup, at_flatten [_, _] _ _ (a_channelGroup.trans ?_)⟩,
      ⟨groupName, h_groupName, at_flatten [_, _, _, _, _] _ _ (a_groupName.trans ?_)⟩,
      ⟨comment, h_comment, at_flatten [_, _, _, _] _ _ (a_comment.trans ?_)⟩, h_chain,
      ⟨dataHeader, h_dataHeader, at_flatten [_, _, _, _, _, _, _] _ _ (a_data.trans ?_)⟩,
      at_flatten [_, _, _, _, _, _, _, _] _ _ ((congrArg (· + 24) a_data).trans ?_)⟩,
    rfl, h_nodes, rfl, ?_, rfl, ?_⟩
  case refine_8 =>
    -- the number of records does not wrap, as the file is shorter than an address can say
    show events.length.toUInt64.toNat = events.length
    rw [Nat.toUInt64_eq, UInt64.toNat_ofNat', Nat.mod_eq_of_lt (by omega)]
  case refine_9 =>
    -- the data goes up to the end of the file
    refine Eq.trans ?_ (congrArg (· + 24 + (events.map recordBytes).flatten.length) a_data.symm)
    simp [l_header, l_channelGroup, l_dataGroup, l_dataHeader]
    omega
  all_goals
    -- the address of each block is the length of what is before it
    simp [l_header, l_channelGroup, l_dataGroup, l_dataHeader]
    try omega

/-- Whatever is written is serialised. -/
structure Mf4Rs.Total (crate : Mf4Rs) : Prop where
  identification : ∃ bytes, crate.identification = .ok bytes
  header : ∀ block, ∃ bytes, crate.header block = .ok bytes
  text : ∀ text, ∃ bytes, crate.text text = .ok bytes
  channelGroup : ∀ block, ∃ bytes, crate.channelGroup block = .ok bytes
  dataGroup : ∀ block, ∃ bytes, crate.dataGroup block = .ok bytes
  channel : ∀ channel addr next, ∃ bytes, crate.channel (channelBlock channel addr next) = .ok bytes
  dataHeader : ∀ blockLen, ∃ bytes,
    crate.blockHeader { id := "##DT", reserved0 := 0, blockLen, linksNr := 0 } = .ok bytes

theorem exists_channelsFrom (h : crate.Total) (firstChannelAddr : UInt64)
    (defs : List ChannelDef) (size : UInt64) :
    ∃ channels, channelsFrom crate firstChannelAddr size defs = .ok channels := by
  induction defs generalizing size with
  | nil => exact ⟨_, rfl⟩
  | cons channel defs ih =>
    obtain ⟨nameBytes, h_name⟩ := h.text channel.name
    obtain ⟨bytes, h_bytes⟩ := h.channel channel (firstChannelAddr + size)
      (if defs ≠ [] then firstChannelAddr + size + 160 + nameBytes.length.toUInt64 else 0)
    obtain ⟨later, h_later⟩ := ih (size + (bytes.length.toUInt64 + nameBytes.length.toUInt64))
    simp only [channelsFrom, h_name, mdfError, ok_bind, h_bytes, h_later]
    exact ⟨_, rfl⟩

/-- **The export** does not fail by itself. -/
theorem exists_writeFile (h : crate.Total) (events : List CaptureEvent) :
    ∃ file, writeFile crate events = .ok (file,
      { notes := events.zipIdx.flatMap fun e => recordNotes e.1 e.2 }) := by
  -- the blocks without addresses, and the channels
  obtain ⟨stub, h_stub⟩ := h.header crate.headerDefault
  obtain ⟨id, h_id⟩ := h.identification
  obtain ⟨comment, h_comment⟩ := h.text "cantools-rs capture-focused MF4 export"
  obtain ⟨groupName, h_groupName⟩ := h.text channelGroupName
  obtain ⟨⟨channels, size⟩, h_channels⟩ := exists_channelsFrom h
    (id.length.toUInt64 + stub.length.toUInt64 + 104 + 64 + comment.length.toUInt64
      + groupName.length.toUInt64) channelDefs 0
  simp only [writeFile, writePayload_eq, h_stub, h_id, h_comment, h_groupName, h_channels, mdfError,
    orFail_ok, ok_bind]
  -- the blocks that hold the addresses
  obtain ⟨header, h_header⟩ := h.header
    { firstDgAddr := id.length.toUInt64 + stub.length.toUInt64 + 104
      commentAddr := id.length.toUInt64 + stub.length.toUInt64 + 104 + 64
      absTime := (events.head?.map fun event => timestampToNs event.timestamp).getD 0
      timeFlags := 2 }
  obtain ⟨channelGroup, h_channelGroup⟩ := h.channelGroup
    { firstChAddr := id.length.toUInt64 + stub.length.toUInt64 + 104 + 64
        + comment.length.toUInt64 + groupName.length.toUInt64
      acqNameAddr := id.length.toUInt64 + stub.length.toUInt64 + 104 + 64
        + comment.length.toUInt64
      commentAddr := id.length.toUInt64 + stub.length.toUInt64 + 104 + 64
      cyclesNr := events.length.toUInt64
      samplesByteNr := recordSize.toUInt32 }
  obtain ⟨dataGroup, h_dataGroup⟩ := h.dataGroup
    { firstCgAddr := id.length.toUInt64 + stub.length.toUInt64
      dataBlockAddr := id.length.toUInt64 + stub.length.toUInt64 + 104 + 64
        + comment.length.toUInt64 + groupName.length.toUInt64 + size }
  obtain ⟨dataHeader, h_dataHeader⟩ := h.dataHeader
    (24 + (events.map recordBytes).flatten.length).toUInt64
  simp only [h_header, h_channelGroup, h_dataGroup, h_dataHeader, orFail_ok, ok_bind]
  exact ⟨_, rfl⟩

/-! ### Channels and records -/

/-- The values of the channels in the record of an event: its fields but for the blank byte. -/
def channelValues (event : CaptureEvent) : List (List UInt8) := (recordFields event).eraseIdx 5

/-- Each value stands in its record where its channel says, and is as long as it says. -/
theorem channelValues_stand (event : CaptureEvent) :
    List.Forall₂ (fun channel value => At (recordBytes event) channel.byteOffset.toNat value ∧
      8 * value.length = channel.bitCount.toNat) channelDefs (channelValues event) := by
  have h_name : ((nameBytes event).take interfaceNameLen).length ≤ interfaceNameLen :=
    List.length_take_le ..
  have h_data : (event.frame.data.take 64).length ≤ 64 := List.length_take_le ..
  -- the two texts are padded to the width of their channels
  have l_name := Buffer.length_padded (0 : UInt8) h_name
  have l_data := Buffer.length_padded (0 : UInt8) h_data
  exact .cons ⟨at_flatten [] _ _ rfl, by simp⟩ <| .cons ⟨at_flatten [_] _ _ (by simp), by simp⟩ <|
    .cons ⟨at_flatten [_, _] _ _ (by simp), by simp⟩ <|
    .cons ⟨at_flatten [_, _, _] _ _ (by simp), by simp⟩ <|
    .cons ⟨at_flatten [_, _, _, _] _ _ (by simp), by simp⟩ <|
    .cons ⟨at_flatten [_, _, _, _, _, _] _ _ (by simp), by rw [l_name]; rfl⟩ <|
    .cons ⟨at_flatten [_, _, _, _, _, _, _] _ _ (by simp [interfaceNameLen]),
      by rw [l_data]; rfl⟩ .nil

/-- The record of an event stands in the data behind those of the events before it. -/
theorem record_stands {events : List CaptureEvent} {i : ℕ} {event : CaptureEvent}
    (h : events[i]? = some event) :
    At (events.map recordBytes).flatten (recordSize * i) (recordBytes event) := by
  obtain ⟨h_lt, rfl⟩ := List.getElem?_eq_some_iff.mp h
  have h_split : events.map recordBytes = (events.take i).map recordBytes ++
      recordBytes events[i] :: (events.drop (i + 1)).map recordBytes := by
    rw [← List.map_cons, ← List.map_append, List.getElem_cons_drop, List.take_append_drop]
  rw [h_split]
  refine at_flatten _ _ _ ?_
  rw [length_flatten_of_length length_of_mem_records, List.length_map, List.length_take,
    Nat.min_eq_left (Nat.le_of_lt h_lt)]

/-- One channel ends before the other begins. -/
def Before (a b : ChannelDef) : Prop :=
  a.byteOffset.toNat + a.bitCount.toNat / 8 ≤ b.byteOffset.toNat

instance (a b : ChannelDef) : Decidable (Before a b) := inferInstanceAs (Decidable (_ ≤ _))

/-- **The channels of a written file.** From the start of the file a reader meets the seven
channels of a capture, no two of which overlap, and the records behind one another up to the end of
the file; and in the record of every event it finds the value of each channel where the channel
says, as long as the channel says. -/
theorem mf4_file_channels (crate : Mf4Rs) (h_sized : crate.Sized) (events : List CaptureEvent)
    (file : List UInt8) (report : WriteReport) (h : writeFile crate events = .ok (file, report))
    (h_lt : file.length < 2 ^ 64) :
    ∃ mdf : Mdf, mdf.StandsIn crate file ∧ mdf.groupName = channelGroupName ∧
      mdf.channels.map describes = channelDefs ∧
      mdf.channels.Pairwise (fun a b => Before (describes a) (describes b)) ∧
      mdf.channelGroup.cyclesNr.toNat = events.length ∧
      mdf.data.length = mdf.channelGroup.samplesByteNr.toNat * events.length ∧
      file.length = mdf.dataGroup.dataBlockAddr.toNat + 24 + mdf.data.length ∧
      ∀ (i : ℕ) (event : CaptureEvent), events[i]? = some event →
        List.Forall₂ (fun channel value =>
          At file (mdf.dataGroup.dataBlockAddr.toNat + 24 + mdf.channelGroup.samplesByteNr.toNat * i
            + channel.2.byteOffset.toNat) value ∧
          8 * value.length = channel.2.bitCount.toNat) mdf.channels (channelValues event) := by
  obtain ⟨mdf, h_stands, h_name, h_channels, h_size, h_cycles, h_data, h_len⟩ :=
    writeFile_standsIn h_sized h_lt h
  have h_size' : mdf.channelGroup.samplesByteNr.toNat = recordSize := by
    rw [h_size]
    decide
  -- the layout is that of `writeFile_standsIn`; what is left is about sizes and records
  refine ⟨mdf, h_stands, h_name, h_channels, ?_, h_cycles, ?_, h_len, fun i event h_event => ?_⟩
  · rw [← List.pairwise_map, h_channels]
    decide
  · rw [h_data, h_size', length_flatten_of_length length_of_mem_records, List.length_map]
  · -- the record stands in the data, and each value in the record
    have h_records := h_stands.data
    rw [h_data] at h_records
    have h_record := h_records.trans (record_stands h_event)
    have h_values := channelValues_stand event
    rw [← h_channels, List.forall₂_map_left_iff] at h_values
    rw [h_size']
    exact h_values.imp fun channel value h_value => ⟨h_record.trans h_value.1, h_value.2⟩

/-- A block header, for identifiers of four bytes. -/
def plainHeader (header : BlockHeader) : Except String (List UInt8) :=
  if (Utf8.encode header.id.toList).length = 4 then
    .ok (Utf8.encode header.id.toList ++ ofU32 header.reserved0 ++ ofU64 header.blockLen ++
      ofU64 header.linksNr)
  else .error "invalid block identifier"

/-- A block of this identifier with these links and this data behind them. -/
def plainBlock (id : String) (links : List UInt64) (data : List UInt8) :
    Except String (List UInt8) := do
  let header ← plainHeader
    { id, reserved0 := 0, blockLen := (24 + 8 * links.length + data.length).toUInt64
      linksNr := links.length.toUInt64 }
  pure (header ++ links.flatMap ofU64 ++ data)

/-- The identification of a finished file of version 4.10. -/
def plainIdentification : List UInt8 :=
  Utf8.encode "MDF     4.10    mf4_rs  ".toList ++ List.replicate 4 0 ++ ofU16 410 ++
    List.replicate 34 0

/-- The blocks as the format lays them out, with zeros for all that `write_mf4` leaves at its
default. -/
def plainCrate : Mf4Rs where
  identification := .ok plainIdentification
  headerDefault := { firstDgAddr := 0, commentAddr := 0, absTime := 0, timeFlags := 0 }
  header block := plainBlock "##HD" [block.firstDgAddr, 0, 0, 0, 0, block.commentAddr]
    (ofU64 block.absTime ++ List.replicate 4 0 ++ [block.timeFlags] ++ List.replicate 19 0)
  text text := plainBlock "##TX" [] (Utf8.encode text.toList ++ [0])
  channelGroup block := plainBlock "##CG"
    [0, block.firstChAddr, block.acqNameAddr, 0, 0, block.commentAddr]
    (ofU64 0 ++ ofU64 block.cyclesNr ++ List.replicate 8 0 ++ ofU32 block.samplesByteNr ++
      List.replicate 4 0)
  dataGroup block := plainBlock "##DG" [0, block.firstCgAddr, block.dataBlockAddr, 0]
    (List.replicate 8 0)
  channel block := do
    let header ← plainHeader block.header
    if header.length = 24 then
      pure (header ++ [block.nextChAddr, block.componentAddr, block.nameAddr, block.sourceAddr,
          block.conversionAddr, block.data, block.unitAddr, block.commentAddr].flatMap ofU64 ++
        [block.channelType, block.syncType, 0, block.bitOffset] ++ ofU32 block.byteOffset ++
        ofU32 block.bitCount ++ ofU32 block.flags ++ ofU32 block.posInvalidationBit ++
        [block.precision, block.reserved1] ++ ofU16 block.attachmentNr ++ List.replicate 48 0)
    else .error "invalid block header"
  blockHeader := plainHeader

theorem length_plainHeader {header : BlockHeader} {out : List UInt8}
    (h : plainHeader header = .ok out) : out.length = 24 := by
  unfold plainHeader at h
  split at h
  · next h_id =>
    cases h
    simp [h_id]
  · cases h

theorem length_plainBlock {id : String} {links : List UInt64} {data out : List UInt8}
    (h : plainBlock id links data = .ok out) :
    out.length = 24 + 8 * links.length + data.length := by
  obtain ⟨header, h_header, h_out⟩ := bind_eq_ok_iff.mp h
  cases h_out
  simp [length_plainHeader h_header, List.length_flatMap, Nat.mul_comm, Nat.add_assoc]

theorem exists_plainHeader {header : BlockHeader}
    (h : (Utf8.encode header.id.toList).length = 4) : ∃ out, plainHeader header = .ok out :=
  ⟨_, if_pos h⟩

theorem exists_plainBlock {id : String} (h : (Utf8.encode id.toList).length = 4)
    (links : List UInt64)
    (data : List UInt8) : ∃ out, plainBlock id links data = .ok out := by
  obtain ⟨header, h_header⟩ := @exists_plainHeader
    { id, reserved0 := 0, blockLen := (24 + 8 * links.length + data.length).toUInt64
      linksNr := links.length.toUInt64 } h
  rw [plainBlock, h_header, ok_bind]
  exact ⟨_, rfl⟩

theorem plainCrate_total : plainCrate.Total where
  identification := ⟨_, rfl⟩
  header _ := exists_plainBlock (by decide) _ _
  text _ := exists_plainBlock (by decide) _ _
  channelGroup _ := exists_plainBlock (by decide) _ _
  dataGroup _ := exists_plainBlock (by decide) _ _
  channel channel addr next := by
    have h_id : (Utf8.encode "##CN".toList).length = 4 := by decide
    obtain ⟨header, h_header⟩ :=
      @exists_plainHeader (channelBlock channel addr next).header h_id
    have h_out : plainCrate.channel (channelBlock channel addr next)
        = plainHeader (channelBlock channel addr next).header >>= _ := rfl
    rw [h_out, h_header, ok_bind, if_pos (length_plainHeader h_header)]
    exact ⟨_, rfl⟩
  dataHeader _ := exists_plainHeader (by decide : (Utf8.encode "##DT".toList).length = 4)

theorem plainCrate_sized : plainCrate.Sized where
  header h h' := by
    rw [length_plainBlock h, length_plainBlock h']
    simp
  channelGroup h := by
    rw [length_plainBlock h]
    simp
  dataGroup h := by
    rw [length_plainBlock h]
    simp
  channel h := by
    obtain ⟨header, h_header, h_out⟩ := bind_eq_ok_iff.mp h
    rw [if_pos (length_plainHeader h_header)] at h_out
    cases h_out
    simp [length_plainHeader h_header]
  blockHeader h := length_plainHeader h

/-- A remote frame. -/
def remoteEvent : CaptureEvent where
  timestamp := ⟨1, 5⟩
  interface := ⟨some "can0", some 3⟩
  direction := .rx
  frame := ⟨⟨0x123, false, by decide⟩, .remote, [], false, {}⟩
  annotations := []

/-- The export of one remote frame. -/
theorem mf4_file_channels_remote :
    ∃ file report, writeFile plainCrate [remoteEvent] = .ok (file, report) ∧
      ∃ mdf : Mdf, mdf.StandsIn plainCrate file ∧ mdf.channels.map describes = channelDefs := by
  obtain ⟨file, h⟩ := exists_writeFile plainCrate_total [remoteEvent]
  have h_len : (writeFile plainCrate [remoteEvent]).toOption.map (·.1.length) = some 1939 := by
    decide +kernel
  rw [h] at h_len
  have h_eq : file.length = 1939 := Option.some.inj h_len
  have h_lt : file.length < 2 ^ 64 := by
    rw [h_eq]
    decide
  obtain ⟨mdf, h_stands, -, h_channels, -⟩ :=
    mf4_file_channels plainCrate plainCrate_sized [remoteEvent] file _ h h_lt
  exact ⟨file, _, h, mdf, h_stands, h_channels⟩

end Cantools.Codec.Mf4
