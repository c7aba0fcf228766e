import TwoPhase.Binary64
import TwoPhase.Grid
import TwoPhase.Power
import TwoPhase.Text.Quoted

/-!
Digests of grids of doubles: unkeyed BLAKE2b with 16 bytes, over the height and the width as
64-bit words and the cells row by row, all in little-endian order.
-/
namespace TwoPhase

namespace Blake2b

def iv : Array UInt64 :=
  #[0x6A09E667F3BCC908, 0xBB67AE8584CAA73B, 0x3C6EF372FE94F82B, 0xA54FF53A5F1D36F1,
    0x510E527FADE682D1, 0x9B05688C2B3E6C1F, 0x1F83D9ABFB41BD6B, 0x5BE0CD19137E2179]

def sigma : Array (Array Nat) :=
  #[#[0, 1, 2, 3, 4, 5, 6, 7, 8, 9, 10, 11, 12, 13, 14, 15],
    #[14, 10, 4, 8, 9, 15, 13, 6, 1, 12, 0, 2, 11, 7, 5, 3],
    #[11, 8, 12, 0, 5, 2, 15, 13, 10, 14, 3, 6, 7, 1, 9, 4],
    #[7, 9, 3, 1, 13, 12, 11, 14, 2, 6, 5, 10, 4, 0, 15, 8],
    #[9, 0, 5, 7, 2, 4, 10, 15, 14, 1, 11, 12, 6, 8, 3, 13],
    #[2, 12, 6, 10, 0, 11, 8, 3, 4, 13, 7, 5, 15, 14, 1, 9],
    #[12, 5, 1, 15, 14, 13, 4, 10, 0, 7, 6, 3, 9, 2, 8, 11],
    #[13, 11, 7, 14, 12, 1, 3, 9, 5, 0, 15, 4, 8, 6, 2, 10],
    #[6, 15, 14, 9, 11, 3, 0, 8, 12, 2, 13, 7, 1, 4, 10, 5],
    #[10, 2, 8, 4, 7, 6, 1, 5, 15, 11, 9, 14, 3, 12, 13, 0]]

def rotateRight (x : UInt64) (n : UInt64) : UInt64 := (x >>> n) ||| (x <<< (64 - n))

def word (v : Array UInt64) (i : Nat) : UInt64 := v[i]?.getD 0

def mix (v : Array UInt64) (a b c d : Nat) (x y : UInt64) : Array UInt64 :=
  let va := word v a + word v b + x
  let vd := rotateRight (word v d ^^^ va) 32
  let vc := word v c + vd
  let vb := rotateRight (word v b ^^^ vc) 24
  let va := va + vb + y
  let vd := rotateRight (vd ^^^ va) 16
  let vc := vc + vd
  let vb := rotateRight (vb ^^^ vc) 63
  (((v.setIfInBounds a va).setIfInBounds b vb).setIfInBounds c vc).setIfInBounds d vd

def lanes : List (Nat × Nat × Nat × Nat) :=
  [(0, 4, 8, 12), (1, 5, 9, 13), (2, 6, 10, 14), (3, 7, 11, 15),
   (0, 5, 10, 15), (1, 6, 11, 12), (2, 7, 8, 13), (3, 4, 9, 14)]

def round (m v : Array UInt64) (r : Nat) : Array UInt64 :=
  let order := sigma[r % 10]?.getD #[]
  lanes.zipIdx.foldl
    (fun v ((a, b, c, d), k) =>
      mix v a b c d (word m (order[2 * k]?.getD 0)) (word m (order[2 * k + 1]?.getD 0)))
    v

/-- Takes in one block of 16 words, `total` bytes having come up to its end. -/
def compress (h block : Array UInt64) (total : Nat) (last : Bool) : Array UInt64 :=
  let v := h ++ iv
  let v := v.setIfInBounds 12 (word v 12 ^^^ UInt64.ofNat total)
  let v := v.setIfInBounds 13 (word v 13 ^^^ UInt64.ofNat (total / twoTo 64))
  let v := if last then v.setIfInBounds 14 (~~~ word v 14) else v
  let v := (List.range 12).foldl (round block) v
  h.mapIdx fun i x => x ^^^ word v i ^^^ word v (i + 8)

def absorb (h : Array UInt64) (total : Nat) (message : List UInt64) : Array UInt64 :=
  let block := message.take 16
  let full := block.toArray ++ Array.replicate (16 - block.length) 0
  if _h : message.length ≤ 16 then compress h full (total + 8 * block.length) true
  else absorb (compress h full (total + 128) false) (total + 128) (message.drop 16)
termination_by message.length
decreasing_by simp; omega

def digest16 (message : List UInt64) : List UInt64 :=
  let h := iv.setIfInBounds 0 (word iv 0 ^^^ 0x01010010)
  (absorb h 0 message).toList.take 2

def bytes (w : UInt64) : List Nat :=
  (List.range 8).map fun i => w.toNat / twoTo (8 * i) % 256

end Blake2b

namespace Grid

def words (g : Grid Float) : List UInt64 :=
  UInt64.ofNat g.height :: UInt64.ofNat g.width ::
    g.rows.toList.flatMap fun row => row.toList.map Float.toBits

/-- The digest of a grid in hexadecimal. All doubles that are not a number have the same bits here,
so grids that differ in the sign of one share their digest. -/
def digest (g : Grid Float) : String :=
  String.join (((Blake2b.digest16 g.words).flatMap Blake2b.bytes).map (Text.hex 2))

end Grid

end TwoPhase
