/-
# `Container` — tagged parts behind an offset table

A container is a fixed header of 32 bytes, one 32-bit offset per part, and the
parts: a tag, a payload length, the payload.  The header declares a size, and
everything below sees only the bytes within it.

`Container.parse` checks the header field by field and then every part in table
order; the parts it returns are the ones it checked, so looking one up later
cannot fail.  A part says where its payload stands and does not hold it: parts may
overlap, and a payload is cut out of the container only when it is asked for.
-/
import ShaderReport.Bytes.Indexed
import ShaderReport.MD5
import ShaderReport.Tag

namespace ShaderReport

structure Container.Header where
  magic : Tag
  /-- Sixteen bytes, stored and not checked. -/
  digest : Bytes
  major : UInt16
  minor : UInt16
  /-- Declared size of the whole container. -/
  size : UInt32
  /-- Entries in the offset table. -/
  partCount : UInt32
deriving DecidableEq

/-- A named payload: where its header stands and how long it is. -/
structure Part where
  tag : Tag
  /-- Offset of the part's header from the front of the container. -/
  offset : UInt32
  size : UInt32
deriving DecidableEq

/-- A byte string that passed every check. -/
structure Container where
  header : Container.Header
  /-- The bytes within the declared size. -/
  view : Bytes
  /-- The parts in table order. -/
  parts : List Part
deriving DecidableEq

inductive ContainerFault where
  | tooShort (length : Nat)
  | badMagic (found : Tag)
  | unsupportedVersion (major minor : UInt16)
  | sizeBelowHeader (size : UInt32)
  | sizeBeyondInput (size : UInt32) (available : Nat)
  | tooManyParts (count size : UInt32)
  /-- A part's offset points into the header or the offset table. -/
  | partInTable (index : Nat) (offset : UInt32) (tableEnd : Nat)
  | partHeader (index : Nat) (cause : ReadError)
  | partPayload (index : Nat) (tag : Tag) (cause : ReadError)
deriving DecidableEq

namespace Container

def headerLength : Nat := 32

/-- Bytes in front of a payload. -/
def partHeaderLength : Nat := 8

/-- The one format version there is. -/
def majorVersion : UInt16 := 1

def maxParts : Nat := 4096

end Container

def ContainerFault.message : ContainerFault → String
  | .tooShort length => s!"need at least {Container.headerLength} bytes, got {length}"
  | .badMagic found => s!"bad magic {found.text}, expected {Tag.container.text}"
  | .unsupportedVersion major minor => s!"unsupported container version {major}.{minor}"
  | .sizeBelowHeader size =>
    s!"container_size {size} is smaller than header size {Container.headerLength}"
  | .sizeBeyondInput size available =>
    s!"container_size {size} exceeds buffer length {available}"
  | .tooManyParts count size => s!"part_count {count} cannot fit in {size} bytes"
  | .partInTable index offset tableEnd =>
    s!"part {index} offset {offset} points into the container header or offset table " ++
      s!"(need >= {tableEnd})"
  | .partHeader index cause => s!"part {index} header: {cause.message}"
  | .partPayload index tag cause =>
    s!"part {index} ({tag.text}) payload is outside container_size: {cause.message}"

/-- A part in one line, without its payload. -/
def Part.text (p : Part) : String :=
  "Part \x7b " ++ s!"fourcc: {p.tag.text}, offset: {p.offset}, data_len: {p.size}" ++ " \x7d"

/-- The part whose header stands at `offset`. -/
def Part.read (view : Indexed) (tableEnd index : Nat) (offset : UInt32) :
    Except ContainerFault Part :=
  if offset.toNat < tableEnd then .error (.partInTable index offset tableEnd)
  else
    match view.slice offset.toNat Container.partHeaderLength with
    | .error cause => .error (.partHeader index cause)
    | .ok head =>
      let tag := Tag.ofBytes head
      let size := head.u32At 4
      match checkRange (offset.toNat + Container.partHeaderLength) size.toNat view.length with
      | .error cause => .error (.partPayload index tag cause)
      | .ok () => .ok ⟨tag, offset, size⟩

/-- The parts at a list of offsets, the first of which has table index `index`; the
first part that does not fit ends the reading. -/
def Part.readAll (view : Indexed) (tableEnd : Nat) :
    (index : Nat) → List UInt32 → Except ContainerFault (List Part)
  | _, [] => .ok []
  | index, offset :: rest =>
    match Part.read view tableEnd index offset with
    | .error fault => .error fault
    | .ok part =>
      match Part.readAll view tableEnd (index + 1) rest with
      | .error fault => .error fault
      | .ok parts => .ok (part :: parts)

namespace Container

/-- The header fields at their fixed places. -/
def Header.read (b : Bytes) : Header where
  magic := Tag.ofBytes b
  digest := (b.drop 4).take 16
  major := b.u16At 20
  minor := b.u16At 22
  size := b.u32At 24
  partCount := b.u32At 28

/-- Whether a table of `count` parts, each with an offset and a header, fits. -/
def Header.countFits (h : Header) : Bool :=
  h.partCount.toNat ≤ maxParts &&
    h.partCount.toNat ≤ (h.size.toNat - headerLength) / (4 + partHeaderLength)

def Header.tableEnd (h : Header) : Nat := headerLength + 4 * h.partCount.toNat

def offsetTable (view : Bytes) (h : Header) : List UInt32 :=
  Bytes.words32 ((view.drop headerLength).take (4 * h.partCount.toNat))

def parse (b : Bytes) : Except ContainerFault Container :=
  if b.length < headerLength then .error (.tooShort b.length)
  else
    let header := Header.read b
    if header.magic ≠ Tag.container then .error (.badMagic header.magic)
    else if header.major ≠ majorVersion then
      .error (.unsupportedVersion header.major header.minor)
    else if header.size.toNat < headerLength then .error (.sizeBelowHeader header.size)
    else if b.length < header.size.toNat then .error (.sizeBeyondInput header.size b.length)
    else if ¬ header.countFits then .error (.tooManyParts header.partCount header.size)
    else
      let view : Bytes := b.take header.size.toNat
      match Part.readAll view.index header.tableEnd 0 (offsetTable view header) with
      | .error fault => .error fault
      | .ok parts => .ok ⟨header, view, parts⟩

/-- Whether a byte string announces itself as a container. -/
def hasMagic (b : Bytes) : Bool := b.take 4 == Tag.container.toBytes

/-- Reads a container if the input announces one.  Without the announcement there is
nothing to find fault with. -/
def parse? (b : Bytes) : Except ContainerFault (Option Container) :=
  if hasMagic b then (parse b).map some else .ok none

def payload (c : Container) (p : Part) : Bytes :=
  (c.view.drop (p.offset.toNat + partHeaderLength)).take p.size.toNat

/-- The parts with their payloads. -/
def contents (c : Container) : List (Part × Bytes) :=
  let view := Bytes.index c.view
  c.parts.map fun p => (p, (view.drop (p.offset.toNat + partHeaderLength)).take p.size.toNat)

theorem contents_eq (c : Container) : c.contents = c.parts.map fun p => (p, c.payload p) := by
  simp only [contents, payload, Indexed.drop_index]

def part? (c : Container) (index : Nat) : Option Part := c.parts[index]?

/-- The first part of a given name. -/
def find? (c : Container) (tag : Tag) : Option Part := c.parts.find? (·.tag == tag)

def payload? (c : Container) (tag : Tag) : Option Bytes := (c.find? tag).map c.payload

/-- The first part named `primary`, or else the first named `fallback`. -/
def findPreferring? (c : Container) (primary fallback : Tag) : Option Part :=
  (c.find? primary).or (c.find? fallback)

/-- One line for the container and one for each part. -/
def summary (c : Container) : String :=
  let h := c.header
  s!"{h.magic.text} v{h.major}.{h.minor} container_size={h.size} part_count={h.partCount}" ++
    String.join (c.parts.zipIdx.map fun (p, index) =>
      s!"\n  [{Text.zeroPadded 2 index}] {p.tag.text} {p.size} bytes")

/-! ## The digest

The digest covers the container with its own sixteen bytes taken as zero.  Reading a
container never checks it: signed containers carry another hash. -/

/-- The digest that a container ought to carry. -/
def digest (c : Container) : Bytes :=
  MD5.digest (c.view.take 4 ++ List.replicate 16 0 ++ c.view.drop 20)

/-- Whether the header carries that digest. -/
def digestMatches (c : Container) : Bool := c.digest == c.header.digest

end Container

end ShaderReport
