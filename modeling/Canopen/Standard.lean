import Canopen.Catalog
/-!
# Standard entries

The entries every node has: communication profile objects of CiA 301, the daemon's time objects,
its OS command object and its file caches.
-/
namespace Canopen.Standard

def bits (name : String) (offset width : Nat) (width_pos : 0 < width := by decide)
    (fits : offset + width ≤ 64 := by decide) : BitField :=
  ⟨name, offset, width, none, width_pos, fits⟩

def flag (name : String) (offset : Nat) (fits : offset + 1 ≤ 64 := by decide) : BitField :=
  ⟨name, offset, 1, none, by decide, fits⟩

/-- Drafts without a fault as entries. -/
def checked (drafts : List Entry.Draft)
    (valid : ∀ d ∈ drafts, d.fault? = none := by decide +kernel) : List Entry :=
  drafts.pmap (fun d valid => ⟨d, valid⟩) valid

def deviceType : Entry :=
  { address := ⟨0x1000, 0⟩, name := "device_type", type := .unsigned .w32, access := .readOnly }

def errorRegister : Entry :=
  { address := ⟨0x1001, 0⟩
    name := "error_register"
    type := .unsigned .w8
    access := .readOnly
    fields :=
      [flag "generic" 0, flag "current" 1, flag "voltage" 2, flag "temperature" 3,
        flag "communication" 4, flag "device_profile" 5, flag "manufacturer" 7] }

/-- The number of errors that a node remembers. -/
def errorHistory : Nat := 8

/-- Pre-defined error field (0x1003): the number of errors, then the errors, the latest first. -/
def predefinedErrorField : List Entry :=
  checked <|
    { address := ⟨0x1003, 0⟩, name := "error_count", type := .unsigned .w8, access := .readOnly } ::
      (List.range errorHistory).map fun i =>
        { address := ⟨0x1003, UInt8.ofNat (i + 1)⟩
          name := s!"error_field_{i + 1}"
          type := .unsigned .w32
          fields := [bits "error_code" 0 16, bits "additional_info" 16 16] }

/-- The parts of a COB-ID. -/
def cobIdFields : List BitField := [bits "can_id" 0 11, flag "invalid" 31]

/-- COB-ID of the emergency message (0x1014). -/
def emcyCobId : Entry :=
  { address := ⟨0x1014, 0⟩, name := "emcy_cob_id", type := .unsigned .w32, fields := cobIdFields }

/-- Producer heartbeat time in milliseconds (0x1017). -/
def producerHeartbeatTime : Entry :=
  { address := ⟨0x1017, 0⟩, name := "producer_heartbeat_time", type := .unsigned .w16 }

/-- Identity object (0x1018). -/
def identity : List Entry :=
  let part (subIndex : UInt8) (name : String) : Entry.Draft :=
    { address := ⟨0x1018, subIndex⟩, name, type := .unsigned .w32, access := .readOnly }
  checked
    [part 1 "vendor_id", part 2 "product_code", part 3 "revision_number", part 4 "serial_number"]

/-- OS command status (0x1023). -/
def osCommandStatus : Entry :=
  { address := ⟨0x1023, 2⟩
    name := "os_command_status"
    type := .unsigned .w8
    access := .readOnly
    fields :=
      [(bits "state" 0 8).withLabels
        [(0, "no_error_no_reply"), (1, "no_error_reply"), (2, "error_no_reply"),
          (3, "error_reply"), (0xFF, "executing")]] }

/-- The COB-IDs and the peer of an SDO connection. -/
def sdoParameter (index : UInt16) (side peer : String) (peerType : DataType) :
    List Entry.Draft :=
  let cobId (subIndex : UInt8) (name : String) : Entry.Draft :=
    { address := ⟨index, subIndex⟩
      name := side ++ "_" ++ name
      type := .unsigned .w32
      fields := cobIdFields }
  [cobId 1 "cob_id_rx", cobId 2 "cob_id_tx",
    { address := ⟨index, 3⟩, name := side ++ "_" ++ peer, type := peerType }]

/-- SDO server parameter (0x1200). -/
def sdoServerParameter : List Entry :=
  checked (sdoParameter 0x1200 "sdo_server" "client_node_id" (.unsigned .w32))

/-- SDO client parameter (0x1280). -/
def sdoClientParameter : List Entry :=
  checked (sdoParameter 0x1280 "sdo_client" "server_node_id" (.unsigned .w8))

/-- Spacecraft elapsed time (0x2010). -/
def scet : Entry :=
  { address := ⟨0x2010, 0⟩
    name := "scet"
    description := some "CCSDS unsegmented time code"
    type := .unsigned .w64
    fields := [bits "fine_time" 0 24, bits "coarse_time" 32 32] }

/-- UTC time (0x2011). -/
def utc : Entry :=
  { address := ⟨0x2011, 0⟩
    name := "utc"
    description := some "CCSDS day segmented time code"
    type := .unsigned .w64
    fields := [bits "sub_ms" 0 16, bits "ms_of_day" 16 32, bits "day" 48 16] }

def freadIndex : UInt16 := 0x3004

def fwriteIndex : UInt16 := 0x3005

/-- The sub-index that selects a file of a cache. -/
def fileNameSubIndex : UInt8 := 3

/-- The sub-index of the selected file's data. -/
def fileDataSubIndex : UInt8 := 4

def cacheName (cache part : String) : String := cache ++ "_" ++ part

/-- The object that selects a file of a cache by its name. -/
def fileName (index : UInt16) (cache : String) : Entry.Draft :=
  { address := ⟨index, fileNameSubIndex⟩, name := cacheName cache "file_name", type := .domain }

def fileData (index : UInt16) (cache : String) (access : Access) : Entry.Draft :=
  { address := ⟨index, fileDataSubIndex⟩
    name := cacheName cache "file_data"
    type := .domain
    access }

/-- The objects of a file cache. -/
def fileCache (index : UInt16) (cache : String) (dataAccess : Access) : List Entry.Draft :=
  [{ address := ⟨index, 1⟩
     name := cacheName cache "file_count"
     type := .unsigned .w8
     access := .readOnly },
    { address := ⟨index, 2⟩
      name := cacheName cache "files"
      description := some "JSON array of file names"
      type := .domain
      access := .readOnly },
    fileName index cache,
    fileData index cache dataAccess,
    { address := ⟨index, 5⟩
      name := cacheName cache "remove"
      type := .boolean
      access := .writeOnly }]

/-- File read cache (0x3004): files that the node offers. -/
def freadCache : List Entry := checked (fileCache freadIndex "fread" .readOnly)

/-- File write cache (0x3005): files sent to the node. -/
def fwriteCache : List Entry := checked (fileCache fwriteIndex "fwrite" .writeOnly)

def freadFileName : Entry := { toDraft := fileName freadIndex "fread" }

def freadFileData : Entry := { toDraft := fileData freadIndex "fread" .readOnly }

def fwriteFileName : Entry := { toDraft := fileName fwriteIndex "fwrite" }

def fwriteFileData : Entry := { toDraft := fileData fwriteIndex "fwrite" .writeOnly }

theorem mem_freadCache : freadFileName ∈ freadCache ∧ freadFileData ∈ freadCache := by
  decide +kernel

theorem mem_fwriteCache : fwriteFileName ∈ fwriteCache ∧ fwriteFileData ∈ fwriteCache := by
  decide +kernel

/-- A cache has one object at each of the two sub-indices that a transfer uses. -/
theorem transfer_objects :
    (∀ e ∈ freadCache, (e.address.subIndex = fileNameSubIndex ↔ e = freadFileName) ∧
      (e.address.subIndex = fileDataSubIndex ↔ e = freadFileData)) ∧
    ∀ e ∈ fwriteCache, (e.address.subIndex = fileNameSubIndex ↔ e = fwriteFileName) ∧
      (e.address.subIndex = fileDataSubIndex ↔ e = fwriteFileData) := by
  decide +kernel

def entries : List Entry :=
  [deviceType, errorRegister] ++ predefinedErrorField ++ [emcyCobId, producerHeartbeatTime] ++
    identity ++ [osCommandStatus] ++ sdoServerParameter ++ sdoClientParameter ++ [scet, utc] ++
    freadCache ++ fwriteCache

theorem isSome_ofEntries : (Catalog.ofEntries {} entries).toOption.isSome := by
  decide +kernel

def catalog : Catalog := .ofValid {} entries isSome_ofEntries

end Canopen.Standard
