import Tr6260.SwPackage.SuffixArray

/-!
# The difference of two firmwares

`SwBsdiff` of `sw_bsdiff.c`, for lengths below `2 ^ 31`, as its caller's are. A function has no
result when it reads outside of a buffer. The buffers `db`, `eb` and `cb` are the lists of what was
written to them.
-/

namespace Tr6260

namespace Bsdiff

open SuffixOrder

/-- A byte of a buffer. -/
def byteAt (buff : List UInt8) (i : Int) : Option UInt8 :=
  if 0 ≤ i then buff[i.toNat]? else none

/-- What a buffer holds from an offset on. -/
def tailAt (buff : List UInt8) (p : Int) : Option (List UInt8) :=
  if 0 ≤ p ∧ p ≤ buff.length then some (suffix buff p) else none

/-! ## Searching -/

/-- `matchlen`. -/
def matchlen : List UInt8 → List UInt8 → Int
  | a :: old, b :: new => if a ≠ b then 0 else matchlen old new + 1
  | _, _ => 0

/-- `memcmp(old,new,MIN(oldsize,newsize))<0`. -/
def memcmpLess : List UInt8 → List UInt8 → Bool
  | a :: old, b :: new => if a = b then memcmpLess old new else a < b
  | _, _ => false

/-- `search`, with the length and `*pos`. -/
def search (I : Offs) (old new : List UInt8) : Nat → Int → Int → Option (Int × Int)
  | 0, _, _ => none
  | rounds + 1, st, en =>
    if en - st < 2 then do
      let x := matchlen (← tailAt old (I st)) new
      let y := matchlen (← tailAt old (I en)) new
      if x > y then some (x, I st) else some (y, I en)
    else do
      let x := st + (en - st) / 2
      if memcmpLess (← tailAt old (I x)) new then search I old new rounds x en
      else search I old new rounds st x

/-- `(i+lastoffset<oldLen)&&(oldBuff[i+lastoffset]==newBuff[i])`. -/
def sameAt (old new : List UInt8) (lastoffset i : Int) : Option Bool :=
  if i + lastoffset < old.length then do
    let a ← byteAt old (i + lastoffset)
    let b ← byteAt new i
    some (a == b)
  else some false

/-- `for(;scsc<scan+len;scsc++)`, with `oldscore`. -/
def scoreLoop (old new : List UInt8) (lastoffset : Int) : Nat → Int → Int → Option Int
  | 0, _, oldscore => some oldscore
  | rounds + 1, scsc, oldscore => do
    let one ← sameAt old new lastoffset scsc
    scoreLoop old new lastoffset rounds (scsc + 1) (if one then oldscore + 1 else oldscore)

/-- The variables of the loop that looks for the next match. -/
structure Scanning where
  scan : Int
  len : Int
  pos : Int
  scsc : Int
  oldscore : Int

/-- `for(scsc=scan+=len;scan<newLen;scan++)`. -/
def scanLoop (I : Offs) (old new : List UInt8) (lastoffset : Int) :
    Nat → Scanning → Option Scanning
  | 0, s => some s
  | rounds + 1, s =>
    if s.scan < new.length then do
      let (len, pos) ← search I old (← tailAt new s.scan) (old.length + 1) 0 old.length
      let oldscore ← scoreLoop old new lastoffset (s.scan + len - s.scsc).toNat s.scsc s.oldscore
      let s := { s with
        len := len, pos := pos, scsc := max s.scsc (s.scan + len), oldscore := oldscore }
      if len = oldscore ∧ len ≠ 0 ∨ len > oldscore + 8 then some s
      else do
        let one ← sameAt old new lastoffset s.scan
        scanLoop I old new lastoffset rounds
          { s with scan := s.scan + 1, oldscore := if one then oldscore - 1 else oldscore }
    else some s

/-! ## What two matches have between them -/

/-- The variables of a loop for the length with the best score. -/
structure Scoring where
  s : Int
  best : Int
  len : Int

/-- `for(i=0;(lastscan+i<scan)&&(lastpos+i<oldLen);)`. -/
def lenfLoop (old new : List UInt8) (lastscan lastpos scan : Int) :
    Nat → Int → Scoring → Option Scoring
  | 0, _, f => some f
  | rounds + 1, i, f =>
    if lastscan + i < scan ∧ lastpos + i < old.length then do
      let a ← byteAt old (lastpos + i)
      let b ← byteAt new (lastscan + i)
      let s := if a = b then f.s + 1 else f.s
      let i := i + 1
      lenfLoop old new lastscan lastpos scan rounds i
        (if s * 2 - i > f.best * 2 - f.len then ⟨s, s, i⟩ else { f with s := s })
    else some f

/-- `for(i=1;(scan>=lastscan+i)&&(pos>=i);i++)`. -/
def lenbLoop (old new : List UInt8) (lastscan scan pos : Int) :
    Nat → Int → Scoring → Option Scoring
  | 0, _, b => some b
  | rounds + 1, i, b =>
    if scan ≥ lastscan + i ∧ pos ≥ i then do
      let x ← byteAt old (pos - i)
      let y ← byteAt new (scan - i)
      let s := if x = y then b.s + 1 else b.s
      lenbLoop old new lastscan scan pos rounds (i + 1)
        (if s * 2 - i > b.best * 2 - b.len then ⟨s, s, i⟩ else { b with s := s })
    else some b

/-- `for(i=0;i<overlap;i++)`. `f` and `b` are the ends of the overlap in the first match and where
it begins in the second, with the offsets in the new and the old firmware. -/
def overlapLoop (old new : List UInt8) (f b : Int × Int) : Nat → Int → Scoring → Option Scoring
  | 0, _, o => some o
  | rounds + 1, i, o => do
    let x ← byteAt new (f.1 + i)
    let y ← byteAt old (f.2 + i)
    let s := if x = y then o.s + 1 else o.s
    let x ← byteAt new (b.1 + i)
    let y ← byteAt old (b.2 + i)
    let s := if x = y then s - 1 else s
    overlapLoop old new f b rounds (i + 1)
      (if s > o.best then ⟨s, s, i + 1⟩ else { o with s := s })

/-- `for(i=0;i<lenf;i++)`. -/
def diffLoop (old new : List UInt8) (lastscan lastpos : Int) : Nat → Int → Option (List UInt8)
  | 0, _ => some []
  | rounds + 1, i => do
    let b ← byteAt new (lastscan + i)
    let a ← byteAt old (lastpos + i)
    let rest ← diffLoop old new lastscan lastpos rounds (i + 1)
    some ((b - a) :: rest)

/-- `for(i=0;i<(scan-lenb)-(lastscan+lenf);i++)`. -/
def extraLoop (new : List UInt8) (start : Int) : Nat → Int → Option (List UInt8)
  | 0, _ => some []
  | rounds + 1, i => do
    let b ← byteAt new (start + i)
    let rest ← extraLoop new start rounds (i + 1)
    some (b :: rest)

/-- `offtout`. -/
def offtout (x : Int) : List UInt8 :=
  let y := x.natAbs
  let byte (i : Nat) := UInt8.ofNat (y / 256 ^ i % 256)
  [byte 0, byte 1, byte 2, byte 3, byte 4, byte 5, byte 6,
    if x < 0 then byte 7 ||| 0x80 else byte 7]

/-- The buffers. -/
structure Blocks where
  db : List UInt8 := []
  eb : List UInt8 := []
  cb : List UInt8 := []

/-- What the loop goes on with. -/
structure Diffing where
  blocks : Blocks := {}
  scan : Int := 0
  len : Int := 0
  pos : Int := 0
  lastscan : Int := 0
  lastpos : Int := 0
  lastoffset : Int := 0

/-- What is written for a match. The buffers only grow. -/
def emit (old new : List UInt8) (d : Diffing) (lenf lenb : Int) : Option Diffing :=
  let extra := d.scan - lenb - (d.lastscan + lenf)
  if lenf < 0 ∨ extra < 0 then none
  else do
    let db ← diffLoop old new d.lastscan d.lastpos lenf.toNat 0
    let eb ← extraLoop new (d.lastscan + lenf) extra.toNat 0
    let cb := offtout lenf ++ offtout extra ++ offtout (d.pos - lenb - (d.lastpos + lenf))
    some { d with
      blocks := ⟨d.blocks.db ++ db, d.blocks.eb ++ eb, d.blocks.cb ++ cb⟩
      lastscan := d.scan - lenb, lastpos := d.pos - lenb, lastoffset := d.pos - d.scan }

/-- `lenb`, which is 0 at the end of the new firmware. -/
def lenbOf (old new : List UInt8) (d : Diffing) : Option Scoring :=
  if d.scan < new.length then
    lenbLoop old new d.lastscan d.scan d.pos (d.scan - d.lastscan).toNat 1 ⟨0, 0, 0⟩
  else some ⟨0, 0, 0⟩

/-- `if((len!=oldscore)||(scan==newLen))`. -/
def closeMatch (old new : List UInt8) (d : Diffing) : Option Diffing := do
  let f ← lenfLoop old new d.lastscan d.lastpos d.scan (d.scan - d.lastscan).toNat 0 ⟨0, 0, 0⟩
  let b ← lenbOf old new d
  let overlap := d.lastscan + f.len - (d.scan - b.len)
  if overlap > 0 then do
    let o ← overlapLoop old new (d.lastscan + f.len - overlap, d.lastpos + f.len - overlap)
      (d.scan - b.len, d.pos - b.len) overlap.toNat 0 ⟨0, 0, 0⟩
    emit old new d (f.len + (o.len - overlap)) (b.len - o.len)
  else emit old new d f.len b.len

/-- `while(scan<newLen)`. -/
def diffingLoop (I : Offs) (old new : List UInt8) : Nat → Diffing → Option Diffing
  | 0, _ => none
  | rounds + 1, d =>
    if d.scan < new.length then do
      let scan := d.scan + d.len
      let s ← scanLoop I old new d.lastoffset (new.length - scan).toNat
        ⟨scan, d.len, d.pos, scan, 0⟩
      let d := { d with scan := s.scan, len := s.len, pos := s.pos }
      let d ← if s.len ≠ s.oldscore ∨ s.scan = new.length then closeMatch old new d else some d
      diffingLoop I old new rounds d
    else some d

/-! ## The patch -/

/-- How a call ends: `-1`, a heap that was written to behind `cb`, `0` with a header although LZMA
has failed on the blocks, or `0` with a patch and its `prop`. -/
inductive Made where
  | refused
  | overrun
  | uncompressed (head src : List UInt8)
  | patch (patch prop : List UInt8)

/-- `"BSDIFF40"`. -/
def magic : List UInt8 := [0x42, 0x53, 0x44, 0x49, 0x46, 0x46, 0x34, 0x30]

/-- The header. -/
def header (blocks : Blocks) (newLen : Nat) : List UInt8 :=
  magic ++ offtout blocks.cb.length ++ offtout blocks.db.length ++ offtout newLen

/-- The end of a call, after `SwLzmaCompress`, whose result is ignored. -/
def packed (blocks : Blocks) (newLen : Nat) : Option (List UInt8 × List UInt8) → Made
  | none => .uncompressed (header blocks newLen) (blocks.cb ++ blocks.db ++ blocks.eb)
  | some (body, prop) => .patch (header blocks newLen ++ body) prop

/-- `SwBsdiff`, with `SwLzmaCompress` and what is in `I` and `V` when they are allocated. -/
def swBsdiff (malloc : Nat → Bool) (lzma : List UInt8 → Nat → Option (List UInt8 × List UInt8))
    (s : Sorting) (old new : List UInt8) : Option Made :=
  if malloc ((old.length + 1) * 8) = false then some .refused
  else do
    let s ← qsufsort old s
    if malloc (new.length + 1) = false ∨ malloc (new.length * 2) = false then some .refused
    else do
      let d ← diffingLoop s.I old new (new.length + 2) {}
      let blocks := d.blocks
      if new.length + 1 < blocks.cb.length then some .overrun
      else if blocks.cb.length + blocks.db.length + blocks.eb.length + 32 > 2 * new.length then
        some .refused
      else
        some (packed blocks new.length
          (lzma (blocks.cb ++ blocks.db ++ blocks.eb) (2 * new.length)))

end Bsdiff

end Tr6260
