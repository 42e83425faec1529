import MikanOs.Graphics
import MikanOs.Lib.Interaction
import MikanOs.Loader.EntryPoint

/-!
# MikanOs.Loader.Firmware

The services of the firmware that the boot loader calls
(`MikanLoaderPkg/Main.c`), and a firmware that provides them.

Any service may refuse, and the state remembers that one did.  The key of the
memory map may change with every service but `GetMemoryMap`; memory that the
loader does not own may change with any.  The firmware puts up with calls only
as its specification says:

* a file, a block of the pool or a protocol is used only if it has been opened
  or allocated, and not after it has been closed or freed;
* after an `ExitBootServices` that fails only the memory map can be asked for,
  and after one that succeeds nothing at all, the console included;
* the loader writes to memory of its own and to the frame buffer.

Opening `\memmap` may fail without being called a refusal, and so may
`ExitBootServices` with a key that is not that of the current memory map.
-/

namespace MikanOs.Loader

open ByteMemory

/-! ## services -/

/-- `EFI_STATUS`. -/
abbrev EfiStatus := BitVec 64

def EFI_SUCCESS : EfiStatus := 0#64
def EFI_INVALID_PARAMETER : EfiStatus := 0x8000000000000002#64
def EFI_BUFFER_TOO_SMALL : EfiStatus := 0x8000000000000005#64

/-- `EFI_ERROR`. -/
def EFI_ERROR (status : EfiStatus) : Bool := status.msb

/-- `EFI_GRAPHICS_PIXEL_FORMAT`. -/
inductive EfiGraphicsPixelFormat
  | PixelRedGreenBlueReserved8BitPerColor
  | PixelBlueGreenRedReserved8BitPerColor
  | PixelBitMask
  | PixelBltOnly
  | PixelFormatMax
  | invalid (value : BitVec 32)
  deriving DecidableEq, Repr

namespace EfiGraphicsPixelFormat

def value : EfiGraphicsPixelFormat → BitVec 32
  | PixelRedGreenBlueReserved8BitPerColor => 0#32
  | PixelBlueGreenRedReserved8BitPerColor => 1#32
  | PixelBitMask => 2#32
  | PixelBltOnly => 3#32
  | PixelFormatMax => 4#32
  | invalid value => value

/-- The bytes of a pixel of some colour, for the formats that have such. -/
def bytes : EfiGraphicsPixelFormat → PixelColor → Option (List (BitVec 8))
  | PixelRedGreenBlueReserved8BitPerColor, c => some [c.r, c.g, c.b]
  | PixelBlueGreenRedReserved8BitPerColor, c => some [c.b, c.g, c.r]
  | _, _ => none

end EfiGraphicsPixelFormat

/-- `EFI_GRAPHICS_OUTPUT_PROTOCOL_MODE`, with the fields of its `Info`. -/
structure GopMode where
  horizontalResolution : BitVec 32
  verticalResolution : BitVec 32
  pixelFormat : EfiGraphicsPixelFormat
  pixelsPerScanLine : BitVec 32
  frameBufferBase : BitVec 64
  frameBufferSize : BitVec 64

/-- `struct MemoryMap`, and what `gBS->GetMemoryMap` writes to its fields. -/
structure MemoryMap where
  bufferSize : BitVec 64
  buffer : BitVec 64
  mapSize : BitVec 64
  mapKey : BitVec 64
  descriptorSize : BitVec 64
  descriptorVersion : BitVec 32

/-- The protocols that are opened. -/
inductive Protocol
  | loadedImage
  | simpleFileSystem
  | graphicsOutput
  | pciRootBridgeIo
  deriving DecidableEq, Repr

/-- What the loader reads of an interface: `DeviceHandle`, the interface
itself, `Mode`, and `Pci.Read` and `Pci.Write`. -/
def Protocol.Interface : Protocol → Type
  | loadedImage => BitVec 64
  | simpleFileSystem => BitVec 64
  | graphicsOutput => GopMode
  | pciRootBridgeIo => BitVec 64 × BitVec 64

/-- An argument of `Print`. -/
inductive Arg
  | number (v : BitVec 64)
  | text (s : String)

/-- A format and its arguments. -/
structure Text where
  format : String
  args : List Arg

/-- What the loader asks for: the services of the firmware, what is in memory,
and a part of the program that writes to memory. -/
inductive Service
  | print (text : Text)
  | getMemoryMap (map : MemoryMap)
  | openProtocol (handle : BitVec 64) (protocol : Protocol)
  | locateHandleBuffer (protocol : Protocol)
  | freePool (buffer : BitVec 64)
  | openVolume (fs : BitVec 64)
  | openFile (dir : BitVec 64) (name : String) (mode : BitVec 64)
  | writeFile (file : BitVec 64) (line : Text)
  | closeFile (file : BitVec 64)
  | getInfo (file : BitVec 64)
  | readFile (file size buffer : BitVec 64)
  | allocatePool (size : BitVec 64)
  | allocatePages (pages address : BitVec 64)
  | exitBootServices (mapKey : BitVec 64)
  | memory
  | store (code : Machine → Machine)

/-- What it is answered with. -/
def Service.Answer : Service → Type
  | print _ => Unit
  | getMemoryMap _ => EfiStatus × MemoryMap
  | openProtocol _ protocol => EfiStatus × protocol.Interface
  | locateHandleBuffer _ => EfiStatus × BitVec 64
  | freePool _ => EfiStatus
  | openVolume _ => EfiStatus × BitVec 64
  | openFile _ _ _ => EfiStatus × BitVec 64
  | writeFile _ _ => EfiStatus
  | closeFile _ => EfiStatus
  | getInfo _ => EfiStatus × BitVec 64
  | readFile _ _ _ => EfiStatus
  | allocatePool _ => EfiStatus × BitVec 64
  | allocatePages _ _ => EfiStatus
  | exitBootServices _ => EfiStatus
  | memory => ByteMemory
  | store _ => Unit

/-! ## the machine -/

/-- A file in memory from address 0 on. -/
def placed (file : Nat → BitVec 8) : ByteMemory := fun a => file a.toNat

/-- `\kernel.elf`: a file that can be loaded, the lowest segment of which begins
with the file header, `e_entry` included (`entryAddr_of_header`). -/
structure KernelFile where
  bytes : Nat → BitVec 8
  size : BitVec 64
  first : Elf64Phdr
  loadable : Loadable (placed bytes) 0#64 size.toNat
  lowest : Lowest (placed bytes) 0#64 first
  header : first.pOffset = 0#64
  filesz : 32 ≤ first.pFilesz.toNat

namespace KernelFile

variable (kernel : KernelFile)

/-- Its `PT_LOAD` headers. -/
def segments : List Elf64Phdr := Loader.segments (placed kernel.bytes) 0#64

/-- Its `e_entry`. -/
def entry : BitVec 64 := uint64 kernel.bytes 24

/-- It is in memory from `buffer` on. -/
def IsAt (m : ByteMemory) (buffer : BitVec 64) : Prop :=
  ∀ k < kernel.size.toNat, m.view buffer k = kernel.bytes k

variable {kernel} {m : ByteMemory} {buffer : BitVec 64}

theorem view_placed {k : Nat} (h : k < kernel.size.toNat) :
    (placed kernel.bytes).view 0#64 k = kernel.bytes k := by
  have hlt := kernel.size.isLt
  have hk : (0#64 + BitVec.ofNat 64 k).toNat = k := by
    rw [BitVec.zero_add, BitVec.toNat_ofNat, Nat.mod_eq_of_lt (by omega)]
  exact congrArg kernel.bytes hk

namespace IsAt

/-- Its headers are where it is. -/
theorem ehdrAt_eq (h : kernel.IsAt m buffer) :
    ehdrAt m buffer = ehdrAt (placed kernel.bytes) 0#64 :=
  Elf64Ehdr.ofBytes_congr fun k hk =>
    have hlt := Nat.lt_of_lt_of_le hk kernel.loadable.header
    (h k hlt).trans (view_placed hlt).symm

theorem segments_eq (h : kernel.IsAt m buffer) : Loader.segments m buffer = kernel.segments := by
  have htable := kernel.loadable.table
  unfold KernelFile.segments Loader.segments
  rw [h.ehdrAt_eq]
  refine segmentsUpTo_congr fun i hi => Elf64Phdr.ofBytes_congr fun k hk => ?_
  have hmul := Nat.mul_le_mul_left sizeofPhdr (Nat.succ_le_of_lt hi)
  have hlt : (ehdrAt (placed kernel.bytes) 0#64).ePhoff.toNat + sizeofPhdr * i + k <
      kernel.size.toNat := by
    rw [Nat.mul_succ] at hmul
    omega
  rw [h.ehdrAt_eq, phdrPtr_eq, phdrPtr_eq, view_add, view_add, h _ hlt, view_placed hlt]

/-- It can be loaded from there. -/
theorem loadable (h : kernel.IsAt m buffer) : Loadable m buffer kernel.size.toNat := by
  obtain ⟨hheader, htable, hfilesz, hin, hwrap, hdisj⟩ := kernel.loadable
  rw [← h.ehdrAt_eq] at htable
  have hsegments : Loader.segments (placed kernel.bytes) 0#64 = Loader.segments m buffer :=
    h.segments_eq.symm
  rw [hsegments] at hfilesz hin hwrap hdisj
  exact ⟨hheader, htable, hfilesz, hin, hwrap, hdisj⟩

theorem lowest (h : kernel.IsAt m buffer) : Lowest m buffer kernel.first := by
  unfold Lowest
  rw [h.segments_eq]
  exact kernel.lowest

/-- What its segments say is what they say there. -/
theorem image_eq (h : kernel.IsAt m buffer) {p : Elf64Phdr} (hp : p ∈ kernel.segments) (k : Nat) :
    p.image (m.view buffer) k = p.image kernel.bytes k := by
  have hin := kernel.loadable.inFile p hp
  unfold Elf64Phdr.image
  split
  · exact h _ (by omega)
  · rfl

end IsAt

end KernelFile

/-- What the loader finds: `memmap_buf` on its stack, the file system with the
kernel, and the screen. -/
structure Firmware where
  memmapBuf : Block
  fileSystem : BitVec 64
  kernel : KernelFile
  mode : GopMode
  notNull : memmapBuf.start ≠ 0#64
  fits : memmapBuf.start.toNat + memmapBuf.length.toNat < 2 ^ 64

/-- A file that is open. -/
structure OpenFile where
  handle : BitVec 64
  name : String
  position : Nat

/-- Whether there are boot services: while the first `ExitBootServices` may
have taken some down already, they are `leaving`. -/
inductive BootServices
  | running
  | leaving
  | exited
  deriving DecidableEq, Repr

/-- The state of the machine while the loader runs. -/
structure Firmware.State where
  services : BootServices
  mapKey : BitVec 64
  mem : ByteMemory
  files : List OpenFile
  /-- what has been written to `\memmap` -/
  lines : List Text
  pool : List Block
  pages : List (BitVec 64 × BitVec 64)
  /-- the screen has been opened -/
  graphics : Bool
  /-- some service has been refused -/
  refused : Bool

namespace Firmware

/-- The state that the loader is started in. -/
def start (mapKey : BitVec 64) (mem : ByteMemory) : State where
  services := .running
  mapKey := mapKey
  mem := mem
  files := []
  lines := []
  pool := []
  pages := []
  graphics := false
  refused := false

/-- An address in `n` pages from `address` on. -/
def InPages (range : BitVec 64 × BitVec 64) (a : BitVec 64) : Prop :=
  range.1.toNat ≤ a.toNat ∧ a.toNat < range.1.toNat + 4096 * range.2.toNat

namespace State

variable (f : Firmware) (s : State)

/-- Memory of the loader. -/
inductive Owns (a : BitVec 64) : Prop
  | stack (h : f.memmapBuf.Contains a)
  | pool {b : Block} (hb : b ∈ s.pool) (h : b.Contains a)
  | pages {r : BitVec 64 × BitVec 64} (hr : r ∈ s.pages) (h : InPages r a)

/-- Memory that it may write to. -/
def Writable (a : BitVec 64) : Prop :=
  s.Owns f a ∨
    s.graphics = true ∧ (Block.mk f.mode.frameBufferBase f.mode.frameBufferSize).Contains a

def HasFile (file : BitVec 64) : Prop := ∃ x ∈ s.files, x.handle = file

/-- Only the memory map changes, and memory that is not the loader's. -/
structure Passes (t : State) : Prop where
  mem : ∀ a, s.Owns f a → t.mem a = s.mem a
  rest : t = { s with mapKey := t.mapKey, mem := t.mem }

/-- What a refusal leaves. -/
def refuse : State := { s with refused := true }

/-! ## what is allowed -/

/-- What may be asked for. -/
def Allowed : Service → Prop
  | .print _ => s.services ≠ .exited
  | .getMemoryMap map => s.services ≠ .exited ∧
      ∀ a, (Block.mk map.buffer map.mapSize).Contains a → s.Owns f a
  | .openProtocol _ _ => s.services = .running
  | .locateHandleBuffer _ => s.services = .running
  | .freePool buffer => s.services = .running ∧ ∃ b ∈ s.pool, b.start = buffer
  | .openVolume fs => s.services = .running ∧ fs = f.fileSystem
  | .openFile dir _ _ => s.services = .running ∧ s.HasFile dir
  | .writeFile file _ => s.services = .running ∧ s.HasFile file
  | .closeFile file => s.services = .running ∧ s.HasFile file
  | .getInfo file => s.services = .running ∧ s.HasFile file
  | .readFile file size buffer => s.services = .running ∧ s.HasFile file ∧
      ∀ a, (Block.mk buffer size).Contains a → s.Owns f a
  | .allocatePool _ => s.services = .running
  | .allocatePages _ _ => s.services = .running
  | .exitBootServices _ => s.services ≠ .exited
  | .memory => True
  | .store code => ∀ w ∈ (code ⟨s.mem, []⟩).writes, ∀ a, w.Contains a → s.Writable f a

/-! ## what it leaves -/

/-- What an interface is. -/
def Provides : (protocol : Protocol) → protocol.Interface → Prop
  | .loadedImage, _ => True
  | .simpleFileSystem, fs => fs = f.fileSystem
  | .graphicsOutput, mode => mode = f.mode
  | .pciRootBridgeIo, _ => True

/-- `sizeof(EFI_MEMORY_DESCRIPTOR)`. -/
def sizeofDescriptor : Nat := 40

/-- The memory map of `key` in the buffer of `map`. -/
structure Maps (key : BitVec 64) (map answer : MemoryMap) : Prop where
  mapKey : answer.mapKey = key
  mapSize : answer.mapSize ≤ map.mapSize
  descriptorSize : sizeofDescriptor ≤ answer.descriptorSize.toNat
  whole : answer.descriptorSize.toNat ∣ answer.mapSize.toNat

/-- What has been read when `size` bytes of a file have been read into a
buffer. -/
def HasRead (file size buffer : BitVec 64) (mem : ByteMemory) : Prop :=
  ∀ x ∈ s.files, x.handle = file → x.name = "\\kernel.elf" → x.position = 0 →
    size = f.kernel.size → f.kernel.IsAt mem buffer

/-- What a service is answered with, and what it leaves. -/
inductive Answers : (op : Service) → op.Answer → State → Prop
  | print {t : State} {text : Text} (h : s.Passes f t) : Answers (.print text) () t
  /-- the map is only asked for, whatever comes of it -/
  | map {map answer : MemoryMap} {status : EfiStatus} {mem : ByteMemory}
      (ok : EFI_ERROR status = false) (maps : Maps s.mapKey map answer)
      (h : ∀ a, s.Owns f a → ¬ (Block.mk map.buffer map.mapSize).Contains a → mem a = s.mem a) :
      Answers (.getMemoryMap map) (status, answer) { s with mem := mem }
  | noMap {map answer : MemoryMap} {status : EfiStatus} (err : EFI_ERROR status = true) :
      Answers (.getMemoryMap map) (status, answer) s.refuse
  | protocol {t : State} {handle : BitVec 64} {protocol : Protocol} {i : protocol.Interface}
      {status : EfiStatus} (ok : EFI_ERROR status = false) (i_eq : Provides f protocol i)
      (h : s.Passes f t) : Answers (.openProtocol handle protocol) (status, i)
        { t with graphics := s.graphics || protocol = .graphicsOutput }
  | noProtocol {t : State} {handle : BitVec 64} {protocol : Protocol} {i : protocol.Interface}
      {status : EfiStatus} (err : EFI_ERROR status = true) (h : s.Passes f t) :
      Answers (.openProtocol handle protocol) (status, i) t.refuse
  /-- the handles are in a block of the pool -/
  | handles {t : State} {protocol : Protocol} {buffer size : BitVec 64} {status : EfiStatus}
      (ok : EFI_ERROR status = false)
      (free : ∀ a, (Block.mk buffer size).Contains a → ¬ s.Owns f a) (h : s.Passes f t) :
      Answers (.locateHandleBuffer protocol) (status, buffer)
        { t with pool := ⟨buffer, size⟩ :: s.pool }
  | noHandles {t : State} {protocol : Protocol} {buffer : BitVec 64} {status : EfiStatus}
      (err : EFI_ERROR status = true) (h : s.Passes f t) :
      Answers (.locateHandleBuffer protocol) (status, buffer) t.refuse
  | free {buffer key : BitVec 64} {status : EfiStatus} {mem : ByteMemory}
      (ok : EFI_ERROR status = false)
      (h : ∀ a, { s with pool := s.pool.eraseP (·.start = buffer) }.Owns f a → mem a = s.mem a) :
      Answers (.freePool buffer) status
        { s with pool := s.pool.eraseP (·.start = buffer), mapKey := key, mem := mem }
  | noFree {t : State} {buffer : BitVec 64} {status : EfiStatus} (err : EFI_ERROR status = true)
      (h : s.Passes f t) : Answers (.freePool buffer) status t.refuse
  | volume {t : State} {fs root : BitVec 64} {status : EfiStatus} (ok : EFI_ERROR status = false)
      (h : s.Passes f t) : Answers (.openVolume fs) (status, root)
        { t with files := ⟨root, "\\", 0⟩ :: s.files }
  | noVolume {t : State} {fs root : BitVec 64} {status : EfiStatus} (err : EFI_ERROR status = true)
      (h : s.Passes f t) : Answers (.openVolume fs) (status, root) t.refuse
  | file {t : State} {dir file mode : BitVec 64} {name : String} {status : EfiStatus}
      (ok : EFI_ERROR status = false) (h : s.Passes f t) :
      Answers (.openFile dir name mode) (status, file)
        { t with files := ⟨file, name, 0⟩ :: s.files }
  | noFile {t : State} {dir file mode : BitVec 64} {name : String} {status : EfiStatus}
      (err : EFI_ERROR status = true) (h : s.Passes f t) :
      Answers (.openFile dir name mode) (status, file)
        { t with refused := s.refused || name ≠ "\\memmap" }
  | write {t : State} {file : BitVec 64} {line : Text} {status : EfiStatus}
      (ok : EFI_ERROR status = false) (h : s.Passes f t) :
      Answers (.writeFile file line) status { t with lines := s.lines ++ [line] }
  | noWrite {t : State} {file : BitVec 64} {line : Text} {status : EfiStatus}
      (err : EFI_ERROR status = true) (h : s.Passes f t) :
      Answers (.writeFile file line) status t.refuse
  | close {t : State} {file : BitVec 64} {status : EfiStatus} (ok : EFI_ERROR status = false)
      (h : s.Passes f t) : Answers (.closeFile file) status
        { t with files := s.files.eraseP (·.handle = file) }
  | noClose {t : State} {file : BitVec 64} {status : EfiStatus} (err : EFI_ERROR status = true)
      (h : s.Passes f t) : Answers (.closeFile file) status t.refuse
  | info {t : State} {file size : BitVec 64} {status : EfiStatus} (ok : EFI_ERROR status = false)
      (is : ∀ x ∈ s.files, x.handle = file → x.name = "\\kernel.elf" → size = f.kernel.size)
      (h : s.Passes f t) : Answers (.getInfo file) (status, size) t
  | noInfo {t : State} {file size : BitVec 64} {status : EfiStatus} (err : EFI_ERROR status = true)
      (h : s.Passes f t) : Answers (.getInfo file) (status, size) t.refuse
  | read {file size buffer key : BitVec 64} {status : EfiStatus} {mem : ByteMemory} {n : Nat}
      (ok : EFI_ERROR status = false) (has : s.HasRead f file size buffer mem)
      (h : ∀ a, s.Owns f a → ¬ (Block.mk buffer size).Contains a → mem a = s.mem a) :
      Answers (.readFile file size buffer) status { s with
        mapKey := key
        mem := mem
        files := s.files.map fun x => if x.handle = file then { x with position := n } else x }
  | noRead {t : State} {file size buffer : BitVec 64} {status : EfiStatus}
      (err : EFI_ERROR status = true) (h : s.Passes f t) :
      Answers (.readFile file size buffer) status t.refuse
  | pool {t : State} {size buffer : BitVec 64} {status : EfiStatus}
      (ok : EFI_ERROR status = false)
      (free : ∀ a, (Block.mk buffer size).Contains a → ¬ s.Owns f a) (h : s.Passes f t) :
      Answers (.allocatePool size) (status, buffer)
        { t with pool := ⟨buffer, size⟩ :: s.pool }
  | noPool {t : State} {size buffer : BitVec 64} {status : EfiStatus}
      (err : EFI_ERROR status = true) (h : s.Passes f t) :
      Answers (.allocatePool size) (status, buffer) t.refuse
  | pages {t : State} {n address : BitVec 64} {status : EfiStatus} (ok : EFI_ERROR status = false)
      (fits : address.toNat + 4096 * n.toNat ≤ 2 ^ 64)
      (free : ∀ a, InPages (address, n) a → ¬ s.Owns f a) (h : s.Passes f t) :
      Answers (.allocatePages n address) status { t with pages := (address, n) :: s.pages }
  | noPages {t : State} {n address : BitVec 64} {status : EfiStatus} (err : EFI_ERROR status = true)
      (h : s.Passes f t) : Answers (.allocatePages n address) status t.refuse
  | exit {t : State} {key : BitVec 64} {status : EfiStatus} (ok : EFI_ERROR status = false)
      (current : key = s.mapKey) (h : s.Passes f t) :
      Answers (.exitBootServices key) status { t with services := .exited }
  | noExit {t : State} {key : BitVec 64} {status : EfiStatus} (err : EFI_ERROR status = true)
      (h : s.Passes f t) : Answers (.exitBootServices key) status
        { t with services := .leaving, refused := s.refused || key = s.mapKey }
  | memory : Answers .memory s.mem s
  | store {code : Machine → Machine} :
      Answers (.store code) () { s with mem := (code ⟨s.mem, []⟩).mem }

variable {f s}

/-! ## time passes -/

namespace Passes

variable {t : State} (h : s.Passes f t)
include h

theorem services : t.services = s.services := by rw [h.rest]

theorem files : t.files = s.files := by rw [h.rest]

theorem pool : t.pool = s.pool := by rw [h.rest]

theorem pages : t.pages = s.pages := by rw [h.rest]

theorem graphics : t.graphics = s.graphics := by rw [h.rest]

theorem refused : t.refused = s.refused := by rw [h.rest]

theorem owns {a : BitVec 64} (ha : s.Owns f a) : t.Owns f a := by
  cases ha with
  | stack ha => exact .stack ha
  | pool hb ha => exact .pool (h.pool ▸ hb) ha
  | pages hr ha => exact .pages (h.pages ▸ hr) ha

theorem hasFile {file : BitVec 64} (hopen : s.HasFile file) : t.HasFile file := by
  unfold HasFile
  rw [h.files]
  exact hopen

theorem trans {u : State} (hu : t.Passes f u) : s.Passes f u where
  mem a ha := (hu.mem a (h.owns ha)).trans (h.mem a ha)
  rest := by rw [hu.rest, h.rest]

end Passes

/-! ## it answers -/

theorem Passes.refl (s : State) : s.Passes f s := ⟨fun _ _ => rfl, rfl⟩

instance : (protocol : Protocol) → Inhabited protocol.Interface
  | .loadedImage => inferInstanceAs (Inhabited (BitVec 64))
  | .simpleFileSystem => inferInstanceAs (Inhabited (BitVec 64))
  | .graphicsOutput => ⟨⟨0#32, 0#32, .PixelBltOnly, 0#32, 0#64, 0#64⟩⟩
  | .pciRootBridgeIo => inferInstanceAs (Inhabited (BitVec 64 × BitVec 64))

/-- It may always refuse. -/
theorem exists_answers (s : State) (f : Firmware) (op : Service) : ∃ a t, s.Answers f op a t := by
  have err : EFI_ERROR EFI_INVALID_PARAMETER = true := by decide
  have same := Passes.refl (f := f) s
  cases op with
  | print _ => exact ⟨_, _, .print same⟩
  | getMemoryMap map => exact ⟨(_, map), _, .noMap err⟩
  | openProtocol _ _ => exact ⟨(_, default), _, .noProtocol err same⟩
  | locateHandleBuffer _ => exact ⟨(_, 0#64), _, .noHandles err same⟩
  | freePool _ => exact ⟨_, _, .noFree err same⟩
  | openVolume _ => exact ⟨(_, 0#64), _, .noVolume err same⟩
  | openFile _ _ _ => exact ⟨(_, 0#64), _, .noFile err same⟩
  | writeFile _ _ => exact ⟨_, _, .noWrite err same⟩
  | closeFile _ => exact ⟨_, _, .noClose err same⟩
  | getInfo _ => exact ⟨(_, 0#64), _, .noInfo err same⟩
  | readFile _ _ _ => exact ⟨_, _, .noRead err same⟩
  | allocatePool _ => exact ⟨(_, 0#64), _, .noPool err same⟩
  | allocatePages _ _ => exact ⟨_, _, .noPages err same⟩
  | exitBootServices _ => exact ⟨_, _, .noExit err same⟩
  | memory => exact ⟨_, _, .memory⟩
  | store _ => exact ⟨_, _, .store⟩

end State

end Firmware

/-- The firmware as what the loader talks to. -/
def firmware (f : Firmware) : Environment Service Service.Answer where
  State := Firmware.State
  allowed := Firmware.State.Allowed f
  answers := Firmware.State.Answers f
  responds s op _ := s.exists_answers f op

end MikanOs.Loader
