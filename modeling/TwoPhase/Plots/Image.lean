import TwoPhase.Plots

/-!
Grey images in the PNG format, and line charts drawn in them. The pixels are stored without
compression in a single block, so an image has at most 65535 bytes.
-/
namespace TwoPhase

namespace Plots

structure Image where
  width : Nat
  height : Nat
  shades : Array UInt8

namespace Image

def bigEndian (n : Nat) : List UInt8 :=
  [n / 16777216, n / 65536, n / 256, n].map fun k => UInt8.ofNat (k % 256)

def littleEndian (n : Nat) : List UInt8 := [n, n / 256].map fun k => UInt8.ofNat (k % 256)

def crcBit (crc : UInt32) : UInt32 :=
  if crc &&& 1 = 1 then (crc >>> 1) ^^^ 0xEDB88320 else crc >>> 1

def crcByte (crc : UInt32) (b : UInt8) : UInt32 :=
  (List.range 8).foldl (fun c _ => crcBit c) (crc ^^^ b.toUInt32)

def crc (bytes : List UInt8) : Nat := (bytes.foldl crcByte 0xFFFFFFFF ^^^ 0xFFFFFFFF).toNat

def adler (bytes : List UInt8) : Nat :=
  let (a, b) :=
    bytes.foldl
      (fun (a, b) x =>
        let a := (a + x.toNat) % 65521
        (a, (b + a) % 65521))
      (1, 0)
  b * 65536 + a

def chunk (name : String) (data : List UInt8) : List UInt8 :=
  let body := name.toUTF8.toList ++ data
  bigEndian data.length ++ body ++ bigEndian (crc body)

def scanLines (i : Image) : List UInt8 :=
  (List.range i.height).flatMap fun y =>
    0 :: (i.shades.extract (y * i.width) ((y + 1) * i.width)).toList

def png (i : Image) : ByteArray :=
  let rows := i.scanLines
  let header := bigEndian i.width ++ bigEndian i.height ++ [8, 0, 0, 0, 0]
  let block := [0x78, 0x01, 0x01] ++ littleEndian rows.length ++
    littleEndian (65535 - rows.length) ++ rows ++ bigEndian (adler rows)
  let bytes := [0x89, 0x50, 0x4E, 0x47, 0x0D, 0x0A, 0x1A, 0x0A] ++
    chunk "IHDR" header ++ chunk "IDAT" block ++ chunk "IEND" []
  ⟨bytes.toArray⟩

def white (width height : Nat) : Image :=
  { width, height, shades := Array.replicate (width * height) 255 }

def mark (i : Image) (x y : Int) : Image :=
  if 0 ≤ x ∧ x < i.width ∧ 0 ≤ y ∧ y < i.height then
    { i with shades := i.shades.setIfInBounds (y.toNat * i.width + x.toNat) 0 }
  else i

def line (i : Image) (a b : Int × Int) : Image :=
  let steps := max (max (b.1 - a.1).natAbs (b.2 - a.2).natAbs) 1
  (List.range (steps + 1)).foldl
    (fun i (k : Nat) => i.mark (a.1 + (b.1 - a.1) * k / steps) (a.2 + (b.2 - a.2) * k / steps)) i

def dot (i : Image) (p : Int × Int) : Image :=
  (List.range 5).foldl (fun i (k : Nat) => i.line (p.1 - 2, p.2 - 2 + k) (p.1 + 2, p.2 - 2 + k)) i

def lines (i : Image) : List (Int × Int) → Image
  | a :: b :: rest => (i.line a b).lines (b :: rest)
  | _ => i

end Image

def place (low high : Float) (pixels : Nat) (x : Float) : Int :=
  if low < high then ((x - low) / (high - low) * pixels.toFloat).toUInt64.toNat
  else pixels / 2

def extremes (xs : List Float) : Float × Float :=
  match xs with
  | [] => (0, 0)
  | x :: rest => (rest.foldl min x, rest.foldl max x)

/-- A line chart in a frame; points that are not finite are left out. -/
def chart : Drawing Float := fun _ points =>
  let width := 300
  let height := 200
  let margin := 20
  let shown := (points.filter fun p => p.2.isFinite).map fun (n, y) => (n.toFloat, y)
  let (left, right) := extremes (shown.map Prod.fst)
  let (low, high) := extremes (shown.map Prod.snd)
  let spot (p : Float × Float) : Int × Int :=
    (margin + place left right (width - 2 * margin) p.1,
      height - margin - place low high (height - 2 * margin) p.2)
  let spots := shown.map spot
  let frame : List (Int × Int) := [(10, 10), (289, 10), (289, 189), (10, 189), (10, 10)]
  (spots.foldl Image.dot (((Image.white width height).lines frame).lines spots)).png

end Plots

end TwoPhase
