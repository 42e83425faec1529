import MikanOs.Loader.Firmware

/-!
# MikanOs.Loader.UefiMain

The boot loader from its start to the entry of the kernel
(`MikanLoaderPkg/Main.c`), as a program that talks to the firmware.

`uefiMain_runs` is about the whole of it.  On the way, `saveMemoryMap_runs`
says what is written to `\memmap`, and `exitBootServices_gives` why the loader
asks for the memory map twice.

A screen whose format has no bytes for its pixels is found out about only after
the boot services have been left, when there is no console any more to print the
message on; what is said about the loader leaves such screens out.
-/

namespace MikanOs.Loader

open ByteMemory

/-! ## the code -/

/-- How `UefiMain` stops without starting the kernel: in `Halt`, or in a loop
that has no end. -/
inductive Stop
  | halted
  | endless
  deriving DecidableEq, Repr

abbrev Boot := ExceptT Stop (Interaction Service Service.Answer)

/-- A call of a service. -/
def call (op : Service) : Boot op.Answer := ExceptT.lift (Interaction.perform op)

/-- `Print`. -/
def print (format : String) (args : List Arg) : Boot Unit := call (.print ⟨format, args⟩)

/-- `Halt`, which does not return. -/
def halt : Boot Unit := throw .halted

/-- What `UefiMain` does with the status of a call. -/
def check (status : EfiStatus) (format : String) : Boot Unit :=
  if EFI_ERROR status then do
    print format [.number status]
    halt
  else pure ()

/-- `GetMemoryMap`. -/
def getMemoryMap (map : MemoryMap) : Boot (EfiStatus × MemoryMap) :=
  if map.buffer = 0#64 then pure (EFI_BUFFER_TOO_SMALL, map)
  else do
    let (status, answer) ← call (.getMemoryMap { map with mapSize := map.bufferSize })
    pure (status, { map with
      mapSize := answer.mapSize
      mapKey := answer.mapKey
      descriptorSize := answer.descriptorSize
      descriptorVersion := answer.descriptorVersion })

/-- The names of `GetMemoryTypeUnicode`, in the order of `EFI_MEMORY_TYPE`. -/
def memoryTypes : List String :=
  ["EfiReservedMemoryType", "EfiLoaderCode", "EfiLoaderData", "EfiBootServicesCode",
    "EfiBootServicesData", "EfiRuntimeServicesCode", "EfiRuntimeServicesData",
    "EfiConventionalMemory", "EfiUnusableMemory", "EfiACPIReclaimMemory", "EfiACPIMemoryNVS",
    "EfiMemoryMappedIO", "EfiMemoryMappedIOPortSpace", "EfiPalCode", "EfiPersistentMemory",
    "EfiMaxMemoryType"]

/-- `GetMemoryTypeUnicode`. -/
def getMemoryTypeUnicode (type : BitVec 32) : String :=
  memoryTypes.getD type.toNat "InvalidMemoryType"

/-- The first line of `\memmap`. -/
def memmapHeader : Text :=
  ⟨"Index, Type, Type(name), PhysicalStart, NumberOfPages, Attribute\n", []⟩

/-- The line of the descriptor at `iter`. -/
def descriptorLine (m : ByteMemory) (iter : BitVec 64) (i : BitVec 32) : Text :=
  let type := uint32 (m.view iter) 0
  ⟨"%u, %x, %-ls, %08lx, %lx, %lx\n",
    [.number (i.setWidth 64), .number (type.setWidth 64), .text (getMemoryTypeUnicode type),
      .number (uint64 (m.view iter) 8), .number (uint64 (m.view iter) 24),
      .number (uint64 (m.view iter) 32 &&& 0xfffff#64)]⟩

/-- The loop of `SaveMemoryMap`; `n` is more than the addresses that are left. -/
def saveFrom (map : MemoryMap) (file : BitVec 64) :
    Nat → BitVec 64 → BitVec 32 → Boot EfiStatus
  | 0, _, _ => throw .endless
  | n + 1, iter, i =>
      if iter < map.buffer + map.mapSize then do
        let m ← call .memory
        let status ← call (.writeFile file (descriptorLine m iter i))
        if EFI_ERROR status then pure status
        else saveFrom map file n (iter + map.descriptorSize) (i + 1#32)
      else pure EFI_SUCCESS

/-- `SaveMemoryMap`. -/
def saveMemoryMap (map : MemoryMap) (file : BitVec 64) : Boot EfiStatus := do
  let status ← call (.writeFile file memmapHeader)
  if EFI_ERROR status then pure status
  else do
    print "map->buffer = %08lx, map->map_size = %08lx\n" [.number map.buffer, .number map.mapSize]
    saveFrom map file (2 ^ 64) map.buffer 0#32

/-- `OpenRootDir`. -/
def openRootDir (imageHandle : BitVec 64) : Boot (EfiStatus × BitVec 64) := do
  let (status, deviceHandle) ← call (.openProtocol imageHandle .loadedImage)
  if EFI_ERROR status then pure (status, 0#64)
  else do
    let (status, fs) ← call (.openProtocol deviceHandle .simpleFileSystem)
    if EFI_ERROR status then pure (status, 0#64)
    else call (.openVolume fs)

/-- What `OpenGOP` and `OpenPCI` have in common.  An interface that has not been
opened is `default`. -/
def openFirst (protocol : Protocol) : Boot (EfiStatus × protocol.Interface) := do
  let (status, handles) ← call (.locateHandleBuffer protocol)
  if EFI_ERROR status then do
    print "Error:LocateHandleBuffer\n" []
    pure (status, default)
  else do
    let m ← call .memory
    let (status, i) ← call (.openProtocol (uint64 (m.view handles) 0) protocol)
    if EFI_ERROR status then do
      print "Error:OpenProtocol\n" []
      pure (status, default)
    else do
      let _ ← call (.freePool handles)
      pure (EFI_SUCCESS, i)

/-- `OpenGOP`. -/
def openGOP : Boot (EfiStatus × GopMode) := openFirst .graphicsOutput

/-- `OpenPCI`. -/
def openPCI : Boot (EfiStatus × BitVec 64 × BitVec 64) := openFirst .pciRootBridgeIo

/-- `GetPixelFormatUnicode`. -/
def getPixelFormatUnicode : EfiGraphicsPixelFormat → String
  | .PixelRedGreenBlueReserved8BitPerColor => "PixelRedGreenBlueReserved8BitPerColor"
  | .PixelBlueGreenRedReserved8BitPerColor => "PixelBlueGreenRedReserved8BitPerColor"
  | .PixelBitMask => "PixelBitMask"
  | .PixelBltOnly => "PixelBltOnly"
  | .PixelFormatMax => "PixelFormatMax"
  | .invalid _ => "InvalidPixelFormat"

/-- The loop that paints the screen white. -/
def paint (base size : BitVec 64) (s : Machine) : Machine :=
  (List.range size.toNat).foldl (fun s i => s.setMem (base + BitVec.ofNat 64 i) 1#64 255#8) s

/-- The part of `UefiMain` that writes the memory map to `\memmap`. -/
def writeMemmap (rootDir : BitVec 64) (memmap : MemoryMap) : Boot Unit := do
  let (status, memmapFile) ← call (.openFile rootDir "\\memmap" 0x8000000000000003#64)
  if EFI_ERROR status then do
    print "failed to open file '\\memmap': %r\n" [.number status]
    print "Ignored.\n" []
  else do
    let status ← saveMemoryMap memmap memmapFile
    check status "failed to save memory map: %r\n"
    let status ← call (.closeFile memmapFile)
    check status "failed to close memory map: %r\n"

/-- The part that opens the screen and the PCI root bridge. -/
def openDevices : Boot GopMode := do
  let (status, mode) ← openGOP
  check status "failed to open GOP: %r\n"
  print "Resolution: %ux%u, Pixel Format: %s, %u pixels/line\n"
    [.number (mode.horizontalResolution.setWidth 64), .number (mode.verticalResolution.setWidth 64),
      .text (getPixelFormatUnicode mode.pixelFormat),
      .number (mode.pixelsPerScanLine.setWidth 64)]
  print "Frame Buffer: 0x%0lx - 0x%0lx, Size: %lu bytes\n"
    [.number mode.frameBufferBase, .number (mode.frameBufferBase + mode.frameBufferSize),
      .number mode.frameBufferSize]
  call (.store (paint mode.frameBufferBase mode.frameBufferSize))
  let (status, pci) ← openPCI
  check status "failed to open PCI: %r\n"
  print "PCI: Read:%08lx Write:%08lx\n" [.number pci.1, .number pci.2]
  pure mode

/-- The part that reads `\kernel.elf`; it returns `kernel_buffer`. -/
def readKernel (rootDir : BitVec 64) : Boot (BitVec 64) := do
  let (status, kernelFile) ← call (.openFile rootDir "\\kernel.elf" 1#64)
  check status "failed to open file '\\kernel.elf': %r\n"
  let (status, kernelFileSize) ← call (.getInfo kernelFile)
  check status "failed to get file information: %r\n"
  let (status, kernelBuffer) ← call (.allocatePool kernelFileSize)
  check status "failed to allocate pool: %r\n"
  let status ← call (.readFile kernelFile kernelFileSize kernelBuffer)
  check status "error: %r"
  pure kernelBuffer

/-- The part that loads it; it returns `kernel_first_addr`. -/
def loadKernel (kernelBuffer : BitVec 64) : Boot (BitVec 64) := do
  let m ← call .memory
  let range := calcLoadAddressRange m kernelBuffer
  let status ← call (.allocatePages (numPages range) range.1)
  check status "failed to allocate pages: %r\n"
  call (.store (copyLoadSegments kernelBuffer))
  print "Kernel: 0x%0lx - 0x%0lx\n" [.number range.1, .number range.2]
  let status ← call (.freePool kernelBuffer)
  check status "failed to free pool: %r\n"
  pure range.1

/-- The part that leaves the boot services. -/
def exitBootServices (memmap : MemoryMap) : Boot Unit := do
  let status ← call (.exitBootServices memmap.mapKey)
  if EFI_ERROR status then do
    let (status, memmap) ← getMemoryMap memmap
    check status "failed to get memory map: %r\n"
    let status ← call (.exitBootServices memmap.mapKey)
    check status "Could not exit boot service: %r\n"
  else pure ()

/-- `config`, or nothing if the loader does not know the format. -/
def GopMode.config (mode : GopMode) : Option FrameBufferConfig :=
  let config : FrameBufferConfig := {
    frameBuffer := mode.frameBufferBase
    pixelsPerScanLine := mode.pixelsPerScanLine
    horizontalResolution := mode.horizontalResolution
    verticalResolution := mode.verticalResolution
    pixelFormat := .kPixelRGBResv8BitPerColor }
  match mode.pixelFormat with
  | .PixelRedGreenBlueReserved8BitPerColor =>
      some { config with pixelFormat := .kPixelRGBResv8BitPerColor }
  | .PixelBlueGreenRedReserved8BitPerColor =>
      some { config with pixelFormat := .kPixelBGRResv8BitPerColor }
  | _ => none

/-- `UefiMain` up to the call of the entry point: its address and its
argument. -/
def uefiMain (imageHandle : BitVec 64) (memmapBuf : Block) :
    Boot (BitVec 64 × FrameBufferConfig) := do
  print "Hello, Mikan World!\n" []
  let (status, memmap) ←
    getMemoryMap ⟨memmapBuf.length, memmapBuf.start, 0#64, 0#64, 0#64, 0#32⟩
  check status "failed to get memory map: %r\n"
  let (status, rootDir) ← openRootDir imageHandle
  check status "failed to open root directory: %r\n"
  writeMemmap rootDir memmap
  let mode ← openDevices
  let kernelBuffer ← readKernel rootDir
  let kernelFirstAddr ← loadKernel kernelBuffer
  exitBootServices memmap
  let m ← call .memory
  let entryAddr := uint64 (m.view (kernelFirstAddr + 24#64)) 0
  match mode.config with
  | some config => pure (entryAddr, config)
  | none => do
      print "Unimplemented pixel format: %d\n" [.number (mode.pixelFormat.value.setWidth 64)]
      throw .halted

/-! ## calls -/

open Interaction Firmware Firmware.State

/-- Halted, because a service has been refused. -/
def Refused (e : Stop) (t : State) : Prop := e = .halted ∧ t.refused = true

/-- The loader comes to `post`, unless a service is refused. -/
abbrev Gives (f : Firmware) (post : α → State → Prop) (p : Boot α) (s : State) : Prop :=
  Attains (firmware f) post Refused p s

/-- What a function that returns a status leaves. -/
def Reports (good : State → Prop) (status : EfiStatus) (t : State) : Prop :=
  if EFI_ERROR status then t.refused = true ∧ t.services ≠ .exited else good t

section

variable {f : Firmware} {s : State} {good : State → Prop} {status : EfiStatus}

theorem Reports.of_ok (ok : EFI_ERROR status = false) (h : good s) : Reports good status s := by
  unfold Reports
  rw [ok]
  exact h

theorem Reports.of_err (err : EFI_ERROR status = true) (h : s.refused = true)
    (hrun : s.services ≠ .exited) : Reports good status s := by
  unfold Reports
  rw [err]
  exact ⟨h, hrun⟩

theorem Reports.mono {good' : State → Prop} (h : Reports good status s) (himp : good s → good' s) :
    Reports good' status s := by
  unfold Reports at *
  split
  next err => rwa [if_pos err] at h
  next ok =>
    rw [if_neg ok] at h
    exact himp h

/-- A service that refuses after some time. -/
theorem Reports.refuse {t : State} (err : EFI_ERROR status = true) (h : s.Passes f t)
    (hrun : s.services = .running) : Reports good status t.refuse := by
  refine .of_err err rfl ?_
  show t.services ≠ .exited
  rw [h.services, hrun]
  exact BootServices.noConfusion

theorem call_gives (op : Service) {post : op.Answer → State → Prop} (allowed : s.Allowed f op)
    (rest : ∀ a t, s.Answers f op a t → post a t) : Gives f post (call op) s :=
  Attains.lift (.perform op allowed rest)

theorem print_gives (format : String) (args : List Arg) (h : s.services ≠ .exited) :
    Gives f (fun _ t => s.Passes f t) (print format args) s := by
  refine call_gives (.print ⟨format, args⟩) h fun a t ha => ?_
  cases ha with
  | print hpass => exact hpass

/-- What is done after a refusal, and after a success. -/
theorem gives_of_err {post : α → State → Prop} {p q : Boot α} (err : EFI_ERROR status = true)
    (h : Gives f post p s) : Gives f post (if EFI_ERROR status then p else q) s := by
  rw [if_pos err]
  exact h

theorem gives_of_ok {post : α → State → Prop} {p q : Boot α} (ok : EFI_ERROR status = false)
    (h : Gives f post q s) : Gives f post (if EFI_ERROR status then p else q) s := by
  rw [if_neg (by rw [ok]; decide)]
  exact h

/-- After a refusal the loader halts. -/
theorem check_gives (format : String) (h : Reports good status s) :
    Gives f (fun _ => good) (check status format) s := by
  unfold Reports at h
  unfold check
  split at h
  next err =>
    rw [if_pos err]
    refine Attains.bind (print_gives format _ h.2) fun _ t hpass => ?_
    exact Attains.throw ⟨rfl, hpass.refused.trans h.1⟩
  next ok =>
    rw [if_neg ok]
    exact Attains.pure h

/-! ## the memory map -/

/-- What `GetMemoryMap` leaves: the memory map, in the buffer. -/
structure Mapped (f : Firmware) (s : State) (map answer : MemoryMap) (t : State) : Prop where
  buffer : answer.buffer = map.buffer
  bufferSize : answer.bufferSize = map.bufferSize
  mapKey : answer.mapKey = t.mapKey
  mapSize : answer.mapSize ≤ map.bufferSize
  descriptorSize : sizeofDescriptor ≤ answer.descriptorSize.toNat
  whole : answer.descriptorSize.toNat ∣ answer.mapSize.toNat
  mem : ∀ a, s.Owns f a → ¬ f.memmapBuf.Contains a → t.mem a = s.mem a
  rest : t = { s with mem := t.mem }

theorem getMemoryMap_gives {map : MemoryMap} (hbuffer : map.buffer ≠ 0#64)
    (hmap : Block.mk map.buffer map.bufferSize = f.memmapBuf) (hrun : s.services ≠ .exited) :
    Gives f (fun r => Reports (Mapped f s map r.2) r.1) (getMemoryMap map) s := by
  unfold getMemoryMap
  rw [if_neg hbuffer]
  refine Attains.bind (call_gives (.getMemoryMap _) ⟨hrun, fun a ha => .stack (hmap ▸ ha)⟩
    fun _ _ ha => ha) fun r t ha => Attains.pure ?_
  cases ha with
  | map ok maps hmem =>
      refine .of_ok ok ⟨rfl, rfl, maps.mapKey, maps.mapSize, maps.descriptorSize, maps.whole,
        fun a ha hout => hmem a ha ?_, rfl⟩
      rw [hmap]
      exact hout
  | noMap err => exact .of_err err rfl hrun

/-- A memory map in the buffer, which does not run over the end of memory. -/
structure Listed (f : Firmware) (map : MemoryMap) : Prop where
  buffer : map.buffer = f.memmapBuf.start
  mapSize : map.mapSize ≤ f.memmapBuf.length
  descriptorSize : sizeofDescriptor ≤ map.descriptorSize.toNat
  whole : map.descriptorSize.toNat ∣ map.mapSize.toNat

namespace MemoryMap

/-- The number of descriptors. -/
def count (map : MemoryMap) : Nat := map.mapSize.toNat / map.descriptorSize.toNat

/-- The address of a descriptor. -/
def descriptor (map : MemoryMap) (i : Nat) : BitVec 64 :=
  map.buffer + BitVec.ofNat 64 (map.descriptorSize.toNat * i)

/-- The line of a descriptor. -/
def line (map : MemoryMap) (m : ByteMemory) (i : Nat) : Text :=
  descriptorLine m (map.descriptor i) (BitVec.ofNat 32 i)

end MemoryMap

/-- Some lines have been written to `\memmap`. -/
structure Logs (f : Firmware) (s : State) (new : List Text) (t : State) : Prop where
  mem : ∀ a, s.Owns f a → t.mem a = s.mem a
  rest : t = { s with mapKey := t.mapKey, mem := t.mem, lines := s.lines ++ new }

namespace Logs

variable {t u : State} {new more : List Text}

theorem of_passes (h : s.Passes f t) : Logs f s [] t where
  mem := h.mem
  rest := by rw [h.rest, List.append_nil]

theorem of_write (h : s.Passes f t) (line : Text) :
    Logs f s [line] { t with lines := s.lines ++ [line] } where
  mem := h.mem
  rest := by rw [h.rest]

theorem owns (h : Logs f s new t) {a : BitVec 64} (ha : s.Owns f a) : t.Owns f a := by
  rw [h.rest]
  cases ha with
  | stack ha => exact .stack ha
  | pool hb ha => exact .pool hb ha
  | pages hr ha => exact .pages hr ha

theorem services (h : Logs f s new t) : t.services = s.services := by rw [h.rest]

theorem files (h : Logs f s new t) : t.files = s.files := by rw [h.rest]

theorem trans (h : Logs f s new t) (hu : Logs f t more u) : Logs f s (new ++ more) u where
  mem a ha := (hu.mem a (h.owns ha)).trans (h.mem a ha)
  rest := by rw [hu.rest, h.rest, List.append_assoc]

end Logs

namespace Listed

variable {map : MemoryMap} (h : Listed f map)
include h

theorem mul_count : map.descriptorSize.toNat * map.count = map.mapSize.toNat :=
  Nat.mul_div_cancel' h.whole

theorem toNat_descriptor {i : Nat} (hi : i ≤ map.count) :
    (map.descriptor i).toNat = map.buffer.toNat + map.descriptorSize.toNat * i := by
  have hmul := Nat.mul_le_mul_left map.descriptorSize.toNat hi
  have hsize := BitVec.le_def.mp h.mapSize
  have hfits := f.fits
  rw [h.mul_count] at hmul
  rw [← h.buffer] at hfits
  unfold MemoryMap.descriptor
  rw [BitVec.toNat_add, BitVec.toNat_ofNat, Nat.mod_eq_of_lt (b := 2 ^ 64) (by omega),
    Nat.mod_eq_of_lt (by omega)]

/-- The loop is at an end after the last descriptor. -/
theorem descriptor_lt_iff {i : Nat} (hi : i ≤ map.count) :
    map.descriptor i < map.buffer + map.mapSize ↔ i < map.count := by
  have hend : map.buffer + map.mapSize = map.descriptor map.count := by
    unfold MemoryMap.descriptor
    rw [h.mul_count, BitVec.ofNat_toNat, BitVec.setWidth_eq]
  have hpos : 0 < map.descriptorSize.toNat := Nat.lt_of_lt_of_le (by decide) h.descriptorSize
  rw [hend, BitVec.lt_def, h.toNat_descriptor hi, h.toNat_descriptor (Nat.le_refl _),
    Nat.add_lt_add_iff_left, Nat.mul_lt_mul_left hpos]

/-- A line is about the buffer only. -/
theorem line_congr {m m' : ByteMemory} (hmem : ∀ a, f.memmapBuf.Contains a → m' a = m a) {i : Nat}
    (hi : i < map.count) : map.line m' i = map.line m i := by
  have hmul := Nat.mul_le_mul_left map.descriptorSize.toNat (Nat.succ_le_of_lt hi)
  have hsize := BitVec.le_def.mp h.mapSize
  have hbytes := h.descriptorSize
  rw [h.mul_count, Nat.mul_succ] at hmul
  unfold sizeofDescriptor at hbytes
  have hview : ∀ k < 40, m'.view (map.descriptor i) k = m.view (map.descriptor i) k := by
    intro k hk
    unfold MemoryMap.descriptor
    rw [view_add, view_add, h.buffer]
    exact hmem _ (Block.contains_add (by omega))
  unfold MemoryMap.line descriptorLine
  simp [uint64, uint32, uint16, hview]

/-- Nor does a line depend on what happens elsewhere. -/
theorem lines_congr {t : State} {new : List Text} (hlogs : Logs f s new t) {i r : Nat}
    (hr : i + r = map.count) :
    (List.range' i r).map (map.line t.mem) = (List.range' i r).map (map.line s.mem) := by
  refine List.map_congr_left fun j hj => h.line_congr (fun a ha => hlogs.mem a (.stack ha)) ?_
  rw [List.mem_range'_1] at hj
  omega

end Listed

/-- The loop writes the lines of the descriptors that are left. -/
theorem saveFrom_gives {map : MemoryMap} (h : Listed f map) {file : BitVec 64} {n r i : Nat}
    (hr : i + r = map.count) (hn : r < n) (hrun : s.services = .running) (hopen : s.HasFile file) :
    Gives f (fun status => Reports (Logs f s ((List.range' i r).map (map.line s.mem))) status)
      (saveFrom map file n (map.descriptor i) (BitVec.ofNat 32 i)) s := by
  induction n generalizing s i r with
  | zero => exact absurd hn (Nat.not_lt_zero r)
  | succ n ih =>
      unfold saveFrom
      cases r with
      | zero =>
          have hend : ¬ map.descriptor i < map.buffer + map.mapSize := by
            rw [h.descriptor_lt_iff (by omega)]
            omega
          rw [if_neg hend]
          exact Attains.pure (.of_ok (by decide) (.of_passes (.refl s)))
      | succ r =>
          have hi : i < map.count := by omega
          rw [if_pos ((h.descriptor_lt_iff (by omega)).mpr hi)]
          refine Attains.bind (call_gives .memory trivial fun _ _ ha => ha) ?_
          rintro _ _ ⟨⟩
          refine Attains.bind (call_gives (.writeFile file _) ⟨hrun, hopen⟩ fun _ _ ha => ha)
            fun status t ha => ?_
          cases ha with
          | noWrite err hpass => exact gives_of_err err (Attains.pure (.refuse err hpass hrun))
          | @write t _ _ _ ok hpass =>
              refine gives_of_ok ok ?_
              have hline := Logs.of_write hpass (map.line s.mem i)
              have hopen' : HasFile { t with lines := s.lines ++ [map.line s.mem i] } file :=
                hpass.hasFile hopen
              have hnext : map.descriptor i + map.descriptorSize = map.descriptor (i + 1) := by
                unfold MemoryMap.descriptor
                rw [BitVec.add_assoc, Nat.mul_succ, BitVec.ofNat_add, BitVec.ofNat_toNat (n := 64),
                  BitVec.setWidth_eq]
              have hindex : BitVec.ofNat 32 i + 1#32 = BitVec.ofNat 32 (i + 1) := by
                rw [BitVec.ofNat_add]
              rw [hnext, hindex]
              refine (ih (i := i + 1) (r := r) (by omega) (by omega)
                (hline.services.trans hrun) hopen').mono fun status u hu => ?_
              refine hu.mono fun hlogs => ?_
              rw [h.lines_congr hline (by omega)] at hlogs
              exact hline.trans hlogs

/-- `SaveMemoryMap` writes the header and a line for each descriptor. -/
theorem saveMemoryMap_gives {map : MemoryMap} (h : Listed f map) {file : BitVec 64}
    (hrun : s.services = .running) (hopen : s.HasFile file) :
    Gives f (fun status => Reports
      (Logs f s (memmapHeader :: (List.range map.count).map (map.line s.mem))) status)
      (saveMemoryMap map file) s := by
  have hnot : BootServices.running ≠ .exited := BootServices.noConfusion
  have hcount : map.count < 2 ^ 64 := Nat.lt_of_le_of_lt (Nat.div_le_self _ _) map.mapSize.isLt
  have hstart : map.descriptor 0 = map.buffer := BitVec.add_zero _
  unfold saveMemoryMap
  refine Attains.bind (call_gives (.writeFile file _) ⟨hrun, hopen⟩ fun _ _ ha => ha)
    fun status t ha => ?_
  cases ha with
  | noWrite err hpass => exact gives_of_err err (Attains.pure (.refuse err hpass hrun))
  | @write t _ _ _ ok hpass =>
      refine gives_of_ok ok ?_
      have hheader := Logs.of_write hpass memmapHeader
      have hopen' : HasFile { t with lines := s.lines ++ [memmapHeader] } file :=
        hpass.hasFile hopen
      have hrunning := hheader.services.trans hrun
      refine Attains.bind (print_gives _ _ (by rw [hrunning]; exact hnot)) fun _ u hprint => ?_
      have hlogs := hheader.trans (.of_passes hprint)
      rw [← hstart]
      refine (saveFrom_gives h (i := 0) (r := map.count) (Nat.zero_add _) hcount
        (hprint.services.trans hrunning) (hprint.hasFile hopen')).mono
        fun status v hv => hv.mono fun hrest => ?_
      rw [h.lines_congr hlogs (Nat.zero_add _), ← List.range_eq_range'] at hrest
      exact hlogs.trans hrest

/-! ## files and devices -/

/-- The boot services are there, and the root directory. -/
structure Ready (rootDir : BitVec 64) (t : State) : Prop where
  services : t.services = .running
  rootDir : t.HasFile rootDir

theorem running_ne : BootServices.running ≠ .exited := BootServices.noConfusion

theorem openRootDir_gives (imageHandle : BitVec 64) (hrun : s.services = .running) :
    Gives f (fun r => Reports (Ready r.2) r.1) (openRootDir imageHandle) s := by
  unfold openRootDir
  refine Attains.bind (call_gives (.openProtocol imageHandle .loadedImage) hrun fun _ _ ha => ha)
    fun r t ha => ?_
  cases ha with
  | noProtocol err hpass => exact gives_of_err err (Attains.pure (.refuse err hpass hrun))
  | @protocol t _ _ deviceHandle _ ok _ hpass =>
      have hrun : t.services = .running := hpass.services.trans hrun
      refine gives_of_ok ok (Attains.bind (call_gives (.openProtocol deviceHandle .simpleFileSystem)
        hrun fun _ _ ha => ha) fun r u ha => ?_)
      cases ha with
      | noProtocol err hpass => exact gives_of_err err (Attains.pure (.refuse err hpass hrun))
      | @protocol u _ _ fs _ ok hfs hpass =>
          have hrun : u.services = .running := hpass.services.trans hrun
          refine gives_of_ok ok (call_gives (.openVolume fs) ⟨hrun, hfs⟩ fun r v ha => ?_)
          cases ha with
          | noVolume err hpass => exact .refuse err hpass hrun
          | volume ok hpass =>
              exact .of_ok ok ⟨hpass.services.trans hrun, _, List.mem_cons_self, rfl⟩

theorem writeMemmap_gives {map : MemoryMap} (h : Listed f map) {rootDir : BitVec 64}
    (hready : Ready rootDir s) : Gives f (fun _ => Ready rootDir) (writeMemmap rootDir map) s := by
  obtain ⟨hrun, hroot⟩ := hready
  unfold writeMemmap
  refine Attains.bind (call_gives (.openFile rootDir "\\memmap" _) ⟨hrun, hroot⟩ fun _ _ ha => ha)
    fun r t ha => ?_
  cases ha with
  | noFile err hpass =>
      have hrun := hpass.services.trans hrun
      refine gives_of_err err (Attains.bind
        (print_gives _ _ (by show _ ≠ _; rw [hrun]; exact running_ne)) fun _ u hu => ?_)
      have hrun := hu.services.trans hrun
      refine (print_gives _ _ (by rw [hrun]; exact running_ne)).mono fun _ v hv => ?_
      exact ⟨hv.services.trans hrun, hv.hasFile (hu.hasFile (hpass.hasFile hroot))⟩
  | @file t _ memmapFile _ _ _ ok hpass =>
      have hrun := hpass.services.trans hrun
      refine gives_of_ok ok (Attains.bind
        (saveMemoryMap_gives h hrun ⟨_, List.mem_cons_self, rfl⟩) fun status u hu => ?_)
      refine Attains.bind (check_gives _ hu) fun _ v hlogs => ?_
      have hfiles := hlogs.files
      have hrun := hlogs.services.trans hrun
      refine Attains.bind (call_gives (.closeFile memmapFile)
        ⟨hrun, by unfold HasFile; rw [hfiles]; exact ⟨_, List.mem_cons_self, rfl⟩⟩
        fun _ _ ha => ha) fun status w ha => ?_
      refine check_gives _ ?_
      cases ha with
      | noClose err hpass => exact .refuse err hpass hrun
      | close ok hclose =>
          refine .of_ok ok ⟨hclose.services.trans hrun, ?_⟩
          unfold HasFile
          rw [hfiles, List.eraseP_cons_of_pos (by simp)]
          exact hroot

/-- What opening a device leaves. -/
structure Opened (s : State) (protocol : Protocol) (t : State) : Prop where
  services : t.services = .running
  files : t.files = s.files
  graphics : s.graphics = true ∨ protocol = .graphicsOutput → t.graphics = true

theorem Ready.of_opened {rootDir : BitVec 64} {protocol : Protocol} {t : State}
    (h : Opened s protocol t) (hready : Ready rootDir s) : Ready rootDir t where
  services := h.services
  rootDir := by
    unfold HasFile
    rw [h.files]
    exact hready.rootDir

theorem openFirst_gives (protocol : Protocol) (hrun : s.services = .running) :
    Gives f (fun r => Reports (fun t => Provides f protocol r.2 ∧ Opened s protocol t) r.1)
      (openFirst protocol) s := by
  unfold openFirst
  refine Attains.bind (call_gives (.locateHandleBuffer protocol) hrun fun _ _ ha => ha)
    fun r t ha => ?_
  cases ha with
  | @noHandles t _ _ _ err hpass =>
      have hrun := hpass.services.trans hrun
      refine gives_of_err err (Attains.bind
        (print_gives _ _ (by show t.services ≠ _; rw [hrun]; exact running_ne)) fun _ u hu => ?_)
      refine Attains.pure (.of_err err hu.refused ?_)
      rw [hu.services]
      show t.services ≠ _
      rw [hrun]
      exact running_ne
  | @handles t _ handles size _ ok _ hpass =>
      have hrun : t.services = .running := hpass.services.trans hrun
      refine gives_of_ok ok (Attains.bind (call_gives .memory trivial fun _ _ ha => ha) ?_)
      rintro _ _ ⟨⟩
      refine Attains.bind (call_gives (.openProtocol _ protocol) hrun fun _ _ ha => ha)
        fun r u ha => ?_
      cases ha with
      | @noProtocol u _ _ _ _ err hopen =>
          have hrun : u.services = .running := hopen.services.trans hrun
          refine gives_of_err err (Attains.bind
            (print_gives _ _ (by show u.services ≠ _; rw [hrun]; exact running_ne))
            fun _ v hv => ?_)
          refine Attains.pure (.of_err err hv.refused ?_)
          rw [hv.services]
          show u.services ≠ _
          rw [hrun]
          exact running_ne
      | @protocol u _ _ i _ ok hi hopen =>
          have hrun : u.services = .running := hopen.services.trans hrun
          have hblock : ∃ b ∈ u.pool, b.start = handles :=
            ⟨_, by rw [hopen.pool]; exact List.mem_cons_self, rfl⟩
          refine gives_of_ok ok (Attains.bind (call_gives (.freePool handles) ⟨hrun, hblock⟩
            fun _ _ ha => ha) fun status v ha => ?_)
          have hfiles : u.files = s.files := hopen.files.trans hpass.files
          have hgraphics : s.graphics = true ∨ protocol = .graphicsOutput →
              (t.graphics || decide (protocol = .graphicsOutput)) = true := by
            rw [hpass.graphics, Bool.or_eq_true, decide_eq_true_eq]
            exact id
          have ok : EFI_ERROR EFI_SUCCESS = false := by decide
          refine Attains.pure (.of_ok ok ⟨hi, ?_⟩)
          cases ha with
          | free _ _ => exact ⟨hrun, hfiles, hgraphics⟩
          | noFree _ hfree =>
              exact ⟨hfree.services.trans hrun, hfree.files.trans hfiles,
                fun h => hfree.graphics.trans (hgraphics h)⟩

theorem openGOP_gives (hrun : s.services = .running) :
    Gives f (fun r => Reports (fun t => r.2 = f.mode ∧ Opened s .graphicsOutput t) r.1) openGOP s :=
  openFirst_gives .graphicsOutput hrun

theorem openPCI_gives (hrun : s.services = .running) :
    Gives f (fun r => Reports (Opened s .pciRootBridgeIo) r.1) openPCI s :=
  (openFirst_gives .pciRootBridgeIo hrun).mono fun _ _ hr => hr.mono And.right

/-- The loop that paints writes one byte after another. -/
theorem writes_paint (base size : BitVec 64) (s : Machine) : (paint base size s).writes =
    s.writes ++ (List.range size.toNat).map fun i => ⟨base + BitVec.ofNat 64 i, 1#64⟩ := by
  unfold paint
  induction size.toNat with
  | zero => simp
  | succ n ih =>
      rw [List.range_succ, List.foldl_append, List.map_append, ← List.append_assoc, ← ih]
      rfl

/-- It stays in the frame buffer. -/
theorem paint_allowed (hgraphics : s.graphics = true) :
    s.Allowed f (.store (paint f.mode.frameBufferBase f.mode.frameBufferSize)) := by
  intro w hw a ha
  rw [writes_paint, List.nil_append, List.mem_map] at hw
  obtain ⟨i, hi, rfl⟩ := hw
  rw [List.mem_range] at hi
  have heq : a = f.mode.frameBufferBase + BitVec.ofNat 64 i := by
    unfold Block.Contains at ha
    simp only at ha
    bv_omega
  subst heq
  exact .inr ⟨hgraphics, Block.contains_add hi⟩

theorem openDevices_gives {rootDir : BitVec 64} (hready : Ready rootDir s) :
    Gives f (fun mode t => mode = f.mode ∧ Ready rootDir t) openDevices s := by
  unfold openDevices
  refine Attains.bind (openGOP_gives hready.services) fun r t ht => ?_
  obtain ⟨status, mode⟩ := r
  refine Attains.bind (check_gives _ ht) fun _ t ⟨hmode, hopened⟩ => ?_
  have hmode : mode = f.mode := hmode
  subst hmode
  have hne : ∀ {u : State}, u.services = .running → u.services ≠ .exited := fun h => by
    rw [h]
    exact running_ne
  have hready := hready.of_opened hopened
  refine Attains.bind (print_gives _ _ (hne hready.services)) fun _ u hu => ?_
  refine Attains.bind (print_gives _ _ (hne (hu.services.trans hready.services))) fun _ v hv => ?_
  have hready : Ready rootDir v := by
    refine ⟨hv.services.trans (hu.services.trans hready.services), ?_⟩
    exact hv.hasFile (hu.hasFile hready.rootDir)
  have hgraphics : v.graphics = true :=
    hv.graphics.trans (hu.graphics.trans (hopened.graphics (.inr rfl)))
  refine Attains.bind (call_gives (.store (paint _ _)) (paint_allowed hgraphics)
    fun _ _ ha => ha) ?_
  rintro _ _ ⟨⟩
  refine Attains.bind (openPCI_gives hready.services) fun r w hw => ?_
  refine Attains.bind (check_gives _ hw) fun _ w hopened => ?_
  refine Attains.bind (print_gives _ _ (hne hopened.services)) fun _ x hx => ?_
  have hready : Ready rootDir w := by
    refine ⟨hopened.services, ?_⟩
    unfold HasFile
    rw [hopened.files]
    exact hready.rootDir
  exact Attains.pure ⟨rfl, hx.services.trans hready.services, hx.hasFile hready.rootDir⟩

/-! ## the kernel -/

/-- The kernel is in a block of the pool. -/
structure Buffered (f : Firmware) (buffer : BitVec 64) (t : State) : Prop where
  services : t.services = .running
  pool : ⟨buffer, f.kernel.size⟩ ∈ t.pool
  isAt : f.kernel.IsAt t.mem buffer

theorem readKernel_gives {rootDir : BitVec 64} (hready : Ready rootDir s) :
    Gives f (Buffered f) (readKernel rootDir) s := by
  obtain ⟨hrun, hroot⟩ := hready
  unfold readKernel
  refine Attains.bind (call_gives (.openFile rootDir "\\kernel.elf" _) ⟨hrun, hroot⟩
    fun _ _ ha => ha) fun r t ha => ?_
  obtain ⟨status, kernelFile⟩ := r
  have hfile : Reports (fun t => t.services = .running ∧
      ⟨kernelFile, "\\kernel.elf", 0⟩ ∈ t.files) status t := by
    cases ha with
    | noFile err hpass =>
        refine .of_err err (Bool.or_eq_true_iff.mpr (.inr (by decide))) ?_
        show State.services _ ≠ _
        rw [hpass.services, hrun]
        exact running_ne
    | file ok hpass => exact .of_ok ok ⟨hpass.services.trans hrun, List.mem_cons_self⟩
  refine Attains.bind (check_gives _ hfile) fun _ t ⟨hrun, hmem⟩ => ?_
  have hopen : t.HasFile kernelFile := ⟨_, hmem, rfl⟩
  refine Attains.bind (call_gives (.getInfo kernelFile) ⟨hrun, hopen⟩ fun _ _ ha => ha)
    fun r u ha => ?_
  obtain ⟨status, size⟩ := r
  have hinfo : Reports (fun u => size = f.kernel.size ∧ t.Passes f u) status u := by
    cases ha with
    | noInfo err hpass => exact .refuse err hpass hrun
    | info ok is hpass => exact .of_ok ok ⟨is _ hmem rfl rfl, hpass⟩
  refine Attains.bind (check_gives _ hinfo) fun _ u ⟨hsize, hpass⟩ => ?_
  subst hsize
  have hrun := hpass.services.trans hrun
  have hmem := hpass.files ▸ hmem
  refine Attains.bind (call_gives (.allocatePool f.kernel.size) hrun fun _ _ ha => ha)
    fun r v ha => ?_
  obtain ⟨status, buffer⟩ := r
  have hpool : Reports (fun v => v.services = .running ∧ v.files = u.files ∧
      ⟨buffer, f.kernel.size⟩ ∈ v.pool) status v := by
    cases ha with
    | noPool err hpass => exact .refuse err hpass hrun
    | pool ok _ hpass =>
        exact .of_ok ok ⟨hpass.services.trans hrun, hpass.files, List.mem_cons_self⟩
  refine Attains.bind (check_gives _ hpool) fun _ v ⟨hrun, hfiles, hpool⟩ => ?_
  have hmem := hfiles ▸ hmem
  refine Attains.bind (call_gives (.readFile kernelFile f.kernel.size buffer)
    ⟨hrun, ⟨_, hmem, rfl⟩, fun a ha => .pool hpool ha⟩ fun _ _ ha => ha) fun status w ha => ?_
  have hread : Reports (Buffered f buffer) status w := by
    cases ha with
    | noRead err hpass => exact .refuse err hpass hrun
    | read ok has _ => exact .of_ok ok ⟨hrun, hpool, has _ hmem rfl rfl rfl rfl⟩
  exact Attains.bind (check_gives _ hread) fun _ w hw => Attains.pure hw

/-- The kernel is where its headers say, in pages of its own. -/
structure Placed (f : Firmware) (t : State) : Prop where
  pages : ∀ p ∈ f.kernel.segments, ∀ a, p.block.Contains a → ∃ r ∈ t.pages, InPages r a
  apart : ∀ p ∈ f.kernel.segments, ∀ a, p.block.Contains a → ¬ f.memmapBuf.Contains a
  image : ∀ p ∈ f.kernel.segments, ∀ k < p.pMemsz.toNat,
    t.mem (p.pVaddr + BitVec.ofNat 64 k) = p.image f.kernel.bytes k

/-- It stays while nobody writes to these pages. -/
theorem Placed.keep {t : State} (h : Placed f s) (hpages : t.pages = s.pages)
    (hmem : ∀ a, (∃ r ∈ s.pages, InPages r a) → ¬ f.memmapBuf.Contains a → t.mem a = s.mem a) :
    Placed f t where
  pages p hp a ha := by
    rw [hpages]
    exact h.pages p hp a ha
  apart := h.apart
  image p hp k hk := by
    have hcontains : p.block.Contains (p.pVaddr + BitVec.ofNat 64 k) := Block.contains_add hk
    rw [hmem _ (h.pages p hp _ hcontains) (h.apart p hp _ hcontains)]
    exact h.image p hp k hk

theorem owns_of_pages {a : BitVec 64} (h : ∃ r ∈ s.pages, InPages r a) : s.Owns f a := by
  obtain ⟨r, hr, ha⟩ := h
  exact .pages hr ha

theorem Placed.passes {t : State} (h : Placed f s) (hpass : s.Passes f t) : Placed f t :=
  h.keep hpass.pages fun a ha _ => hpass.mem a (owns_of_pages ha)

/-- Copying the segments puts the kernel in its place. -/
theorem placed_store {buffer : BitVec 64} (hat : f.kernel.IsAt s.mem buffer)
    (hpages : ((calcLoadAddressRange s.mem buffer).1,
      numPages (calcLoadAddressRange s.mem buffer)) ∈ s.pages)
    (hfree : ∀ k < f.kernel.size.toNat,
      ¬ Allocated (calcLoadAddressRange s.mem buffer) (buffer + BitVec.ofNat 64 k))
    (hapart : ∀ a, Allocated (calcLoadAddressRange s.mem buffer) a → ¬ f.memmapBuf.Contains a) :
    s.Allowed f (.store (copyLoadSegments buffer)) ∧
      Placed f { s with mem := (copyLoadSegments buffer ⟨s.mem, []⟩).mem } := by
  have hl := hat.loadable
  have hloaded := hl.loaded hfree
  have hsegments := hat.segments_eq
  refine ⟨fun w hw a ha => ?_, fun p hp a ha => ?_, fun p hp a ha => ?_, fun p hp k hk => ?_⟩
  · obtain ⟨p, hp, hcontains⟩ := hloaded.writes w hw a ha
    exact .inl (.pages hpages (hl.allocated p hp a hcontains))
  · exact ⟨_, hpages, hl.allocated p (hsegments ▸ hp) a ha⟩
  · exact hapart a (hl.allocated p (hsegments ▸ hp) a ha)
  · rw [← hat.image_eq hp k]
    exact hloaded.image p (hsegments ▸ hp) k hk

theorem loadKernel_gives {buffer : BitVec 64} (h : Buffered f buffer s) :
    Gives f (fun first t => first = f.kernel.first.pVaddr ∧ t.services = .running ∧ Placed f t)
      (loadKernel buffer) s := by
  obtain ⟨hrun, hpool, hat⟩ := h
  unfold loadKernel
  refine Attains.bind (call_gives .memory trivial fun _ _ ha => ha) ?_
  rintro _ _ ⟨⟩
  have hrange : calcLoadAddressRange s.mem buffer =
      f.kernel.segments.foldl extend (BitVec.allOnes 64, 0#64) := by
    rw [calcLoadAddressRange_eq, hat.segments_eq]
  have hfirst : (calcLoadAddressRange s.mem buffer).1 = f.kernel.first.pVaddr :=
    hat.lowest.calcLoadAddressRange_fst hat.loadable
  generalize hcalc : calcLoadAddressRange s.mem buffer = range at hrange hfirst
  refine Attains.bind (call_gives (.allocatePages (numPages range) range.1) hrun fun _ _ ha => ha)
    fun status t ha => ?_
  have halloc : Reports (fun t => t.services = .running ∧ t.pool = s.pool ∧
      (range.1, numPages range) ∈ t.pages ∧ (∀ a, s.Owns f a → ¬ Allocated range a) ∧
      ∀ a, s.Owns f a → t.mem a = s.mem a) status t := by
    cases ha with
    | noPages err hpass => exact .refuse err hpass hrun
    | pages ok _ free hpass =>
        exact .of_ok ok ⟨hpass.services.trans hrun, hpass.pool, List.mem_cons_self,
          fun a ha hin => free a hin ha, hpass.mem⟩
  refine Attains.bind (check_gives _ halloc) fun _ t ⟨hrun, htpool, hpages, hfree, hmem⟩ => ?_
  have howns : ∀ k < f.kernel.size.toNat, s.Owns f (buffer + BitVec.ofNat 64 k) :=
    fun k hk => .pool hpool (Block.contains_add hk)
  have hat' : f.kernel.IsAt t.mem buffer := fun k hk => (hmem _ (howns k hk)).trans (hat k hk)
  have hcalc' : calcLoadAddressRange t.mem buffer = range := by
    rw [calcLoadAddressRange_eq, hat'.segments_eq, hrange]
  have hplaced := placed_store hat' (by rw [hcalc']; exact hpages)
    (by rw [hcalc']; exact fun k hk => hfree _ (howns k hk))
    (by rw [hcalc']; exact fun a hin ha => hfree a (.stack ha) hin)
  refine Attains.bind (call_gives (.store _) hplaced.1 fun _ _ ha => ha) ?_
  rintro _ u ⟨⟩
  refine Attains.bind (print_gives _ _ (by show t.services ≠ _; rw [hrun]; exact running_ne))
    fun _ v hv => ?_
  have hrun := hv.services.trans hrun
  have hplaced := hplaced.2.passes hv
  have hblock : ∃ b ∈ v.pool, b.start = buffer :=
    ⟨_, by rw [hv.pool]; exact htpool ▸ hpool, rfl⟩
  refine Attains.bind (call_gives (.freePool buffer) ⟨hrun, hblock⟩ fun _ _ ha => ha)
    fun status w ha => ?_
  have hfreed : Reports (fun w => w.services = .running ∧ Placed f w) status w := by
    cases ha with
    | noFree err hpass => exact .refuse err hpass hrun
    | free ok hkeep =>
        exact .of_ok ok ⟨hrun, hplaced.keep rfl fun a ha _ => hkeep a (owns_of_pages ha)⟩
  exact Attains.bind (check_gives _ hfreed) fun _ w hw => Attains.pure ⟨hfirst, hw⟩

/-! ## leaving the firmware -/

/-- The first key may be too old; the second is not. -/
theorem exitBootServices_gives {map : MemoryMap} (hbuffer : map.buffer ≠ 0#64)
    (hmap : Block.mk map.buffer map.bufferSize = f.memmapBuf) (hrun : s.services = .running)
    (hplaced : Placed f s) :
    Gives f (fun _ t => t.services = .exited ∧ Placed f t) (exitBootServices map) s := by
  unfold exitBootServices
  refine Attains.bind (call_gives (.exitBootServices _) (by show _ ≠ _; rw [hrun]; exact running_ne)
    fun _ _ ha => ha) fun status t ha => ?_
  cases ha with
  | exit ok _ hpass =>
      refine gives_of_ok ok (Attains.pure ⟨rfl, ?_⟩)
      exact (hplaced.passes hpass).keep rfl fun _ _ _ => rfl
  | @noExit t _ _ err hpass =>
      have hleaving : BootServices.leaving ≠ .exited := BootServices.noConfusion
      refine gives_of_err err (Attains.bind (getMemoryMap_gives hbuffer hmap hleaving)
        fun r u hu => Attains.bind (check_gives _ hu) fun _ u hmapped => ?_)
      have hplaced : Placed f u := by
        refine (hplaced.passes hpass).keep (by rw [hmapped.rest]) fun a ha hout => ?_
        exact hmapped.mem a (owns_of_pages ha) hout
      have hservices : u.services ≠ .exited := by
        rw [hmapped.rest]
        exact hleaving
      refine Attains.bind (call_gives (.exitBootServices _) hservices fun _ _ ha => ha)
        fun status v ha => check_gives _ ?_
      cases ha with
      | exit ok _ hpass =>
          exact .of_ok ok ⟨rfl, (hplaced.passes hpass).keep rfl fun _ _ _ => rfl⟩
      | noExit err hpass =>
          exact .of_err err (Bool.or_eq_true_iff.mpr (.inr (decide_eq_true hmapped.mapKey)))
            hleaving

/-! ## the whole -/

/-- The entry point is read from the kernel's own header. -/
theorem Placed.entry_eq (h : Placed f s) :
    uint64 (s.mem.view (f.kernel.first.pVaddr + 24#64)) 0 = f.kernel.entry := by
  have hmem : f.kernel.first ∈ f.kernel.segments := f.kernel.lowest.1
  have hsz := BitVec.le_def.mp (f.kernel.loadable.filesz_le _ hmem)
  have hfilesz := f.kernel.filesz
  refine uint64_eq_iff.mpr fun j hj => ?_
  have hview : s.mem.view (f.kernel.first.pVaddr + 24#64) (0 + j) =
      s.mem (f.kernel.first.pVaddr + BitVec.ofNat 64 (24 + j)) := by
    rw [Nat.zero_add]
    exact view_add s.mem f.kernel.first.pVaddr 24 j
  rw [hview, h.image _ hmem _ (by omega), Elf64Phdr.image, if_pos (by omega), f.kernel.header,
    BitVec.toNat_zero, Nat.zero_add]

/-- The kernel knows of the screen what the firmware does. -/
structure Describes (config : FrameBufferConfig) (mode : GopMode) : Prop where
  frameBuffer : config.frameBuffer = mode.frameBufferBase
  pixelsPerScanLine : config.pixelsPerScanLine = mode.pixelsPerScanLine
  horizontalResolution : config.horizontalResolution = mode.horizontalResolution
  verticalResolution : config.verticalResolution = mode.verticalResolution
  pixels : ∀ c, mode.pixelFormat.bytes c = some (config.pixelBytes c)

/-- The loader knows the formats that have bytes for the pixels. -/
theorem exists_config {mode : GopMode} (h : ∀ c, (mode.pixelFormat.bytes c).isSome) :
    ∃ config, mode.config = some config ∧ Describes config mode := by
  have hblack := h ⟨0#8, 0#8, 0#8⟩
  unfold GopMode.config
  cases hformat : mode.pixelFormat with
  | PixelRedGreenBlueReserved8BitPerColor =>
      refine ⟨_, rfl, rfl, rfl, rfl, rfl, fun c => ?_⟩
      rw [hformat]
      rfl
  | PixelBlueGreenRedReserved8BitPerColor =>
      refine ⟨_, rfl, rfl, rfl, rfl, rfl, fun c => ?_⟩
      rw [hformat]
      rfl
  | PixelBitMask => rw [hformat] at hblack; contradiction
  | PixelBltOnly => rw [hformat] at hblack; contradiction
  | PixelFormatMax => rw [hformat] at hblack; contradiction
  | invalid _ => rw [hformat] at hblack; contradiction

/-- The kernel is started as it should be. -/
structure Starts (f : Firmware) (entryAddr : BitVec 64) (config : FrameBufferConfig) (t : State) :
    Prop where
  /-- nobody else is using the machine -/
  services : t.services = .exited
  /-- all of its segments are in memory -/
  image : ∀ p ∈ f.kernel.segments, ∀ k < p.pMemsz.toNat,
    t.mem (p.pVaddr + BitVec.ofNat 64 k) = p.image f.kernel.bytes k
  entry : entryAddr = f.kernel.entry
  config : Describes config f.mode

theorem uefiMain_gives (imageHandle : BitVec 64) (hrun : s.services = .running)
    (hformat : ∀ c, (f.mode.pixelFormat.bytes c).isSome) :
    Gives f (fun r t => Starts f r.1 r.2 t) (uefiMain imageHandle f.memmapBuf) s := by
  obtain ⟨config, hconfig, hdescribes⟩ := exists_config hformat
  unfold uefiMain
  refine Attains.bind (print_gives _ _ (by rw [hrun]; exact running_ne)) fun _ t ht => ?_
  have hrun := ht.services.trans hrun
  refine Attains.bind (getMemoryMap_gives f.notNull rfl (by rw [hrun]; exact running_ne)) ?_
  rintro ⟨status, map⟩ u hu
  refine Attains.bind (check_gives _ hu) fun _ u hmapped => ?_
  have hbuffer : map.buffer ≠ 0#64 := by
    rw [hmapped.buffer]
    exact f.notNull
  have hmap : Block.mk map.buffer map.bufferSize = f.memmapBuf := by
    rw [hmapped.buffer, hmapped.bufferSize]
  have hlisted : Listed f map :=
    ⟨hmapped.buffer, hmapped.mapSize, hmapped.descriptorSize, hmapped.whole⟩
  have hrun : u.services = .running := by
    rw [hmapped.rest]
    exact hrun
  refine Attains.bind (openRootDir_gives imageHandle hrun) ?_
  rintro ⟨status, rootDir⟩ v hv
  refine Attains.bind (check_gives _ hv) fun _ v hready => ?_
  refine Attains.bind (writeMemmap_gives hlisted hready) fun _ w hready => ?_
  refine Attains.bind (openDevices_gives hready) fun mode x hx => ?_
  obtain ⟨rfl, hready⟩ := hx
  refine Attains.bind (readKernel_gives hready) fun buffer y hbuffered => ?_
  refine Attains.bind (loadKernel_gives hbuffered) fun first z hz => ?_
  obtain ⟨rfl, hrun, hplaced⟩ := hz
  refine Attains.bind (exitBootServices_gives hbuffer hmap hrun hplaced) fun _ t ht => ?_
  refine Attains.bind (call_gives .memory trivial fun _ _ ha => ha) ?_
  rintro _ _ ⟨⟩
  dsimp only
  rw [hconfig]
  exact Attains.pure ⟨ht.1, ht.2.image, ht.2.entry_eq, hdescribes⟩

end

/-- **The boot loader.**  Every run of it comes to an end, and asks for nothing
that the firmware does not allow: no file, block or protocol it does not have,
no boot service once they have been left, no byte written outside its own memory
and the frame buffer.  It starts the kernel, exactly as `\kernel.elf` says and
with the screen as the firmware describes it, or else some service has been
refused; that the memory map has changed since it was first asked for does not
keep it from that, nor that `\memmap` cannot be opened.  `KernelFile` says what
is asked of `\kernel.elf`: it can be loaded, and its lowest segment begins with
the file header. -/
theorem uefiMain_runs (f : Firmware) (imageHandle mapKey : BitVec 64) (mem : ByteMemory)
    (hformat : ∀ c, (f.mode.pixelFormat.bytes c).isSome) :
    Runs (firmware f) (Attained (fun r t => Starts f r.1 r.2 t) Refused)
      ((uefiMain imageHandle f.memmapBuf).run, start mapKey mem) :=
  ensures_iff.mp (uefiMain_gives imageHandle rfl hformat)

theorem segments_placed :
    segments (placed (kernelFile 0#8)) 0#64 = [kernelSegment 0#8] := by
  decide +kernel

theorem loadable_placed : Loadable (placed (kernelFile 0#8)) 0#64 160 where
  header := by decide
  table := by decide +kernel
  filesz_le := by rw [segments_placed]; decide
  inFile := by rw [segments_placed]; decide
  noWrap := by rw [segments_placed]; decide
  disjoint := by rw [segments_placed]; exact List.pairwise_singleton _ _

/-- A kernel of one segment, and a screen of 800 by 600. -/
def sampleFirmware : Firmware where
  memmapBuf := ⟨0x7000000#64, 0x4000#64⟩
  fileSystem := 0x6000000#64
  kernel := {
    bytes := kernelFile 0#8
    size := 160#64
    first := kernelSegment 0#8
    loadable := loadable_placed
    lowest := by
      unfold Lowest
      rw [segments_placed]
      exact ⟨List.mem_singleton_self _, List.forall_mem_singleton.mpr (Nat.le_refl _)⟩
    header := rfl
    filesz := by decide }
  mode := ⟨800#32, 600#32, .PixelBlueGreenRedReserved8BitPerColor, 800#32, 0x80000000#64,
    0x1d4c00#64⟩
  notNull := by decide
  fits := by decide

theorem uefiMain_runs_sample : Runs (firmware sampleFirmware)
    (Attained (fun r t => Starts sampleFirmware r.1 r.2 t) Refused)
    ((uefiMain 1#64 sampleFirmware.memmapBuf).run, start 0#64 fun _ => 0#8) :=
  uefiMain_runs sampleFirmware 1#64 0#64 _ fun _ => rfl

/-- **The memory map as a file.**  Every run of `SaveMemoryMap` comes to an end.
If it reports success, it has written the header and then one line for each
descriptor of the map, in their order, and nothing else has changed. -/
theorem saveMemoryMap_runs {f : Firmware} {s : State} {map : MemoryMap} (h : Listed f map)
    {file : BitVec 64} (hrun : s.services = .running) (hopen : s.HasFile file) :
    Runs (firmware f) (Attained (fun status => Reports
      (Logs f s (memmapHeader :: (List.range map.count).map (map.line s.mem))) status) Refused)
      ((saveMemoryMap map file).run, s) :=
  ensures_iff.mp (saveMemoryMap_gives h hrun hopen)

/-- A map of two descriptors. -/
def sampleMap : MemoryMap := ⟨0x4000#64, 0x7000000#64, 80#64, 0#64, 40#64, 1#32⟩

/-- The loader with `\memmap` open. -/
def sampleState : State := { start 0#64 (fun _ => 0#8) with files := [⟨5#64, "\\memmap", 0⟩] }

theorem saveMemoryMap_runs_sample : Runs (firmware sampleFirmware)
    (Attained (fun status => Reports (Logs sampleFirmware sampleState
      (memmapHeader :: (List.range 2).map (sampleMap.line fun _ => 0#8))) status) Refused)
      ((saveMemoryMap sampleMap 5#64).run, sampleState) :=
  saveMemoryMap_runs ⟨rfl, by decide, by decide, by decide⟩ rfl ⟨_, List.mem_singleton_self _, rfl⟩

end MikanOs.Loader
