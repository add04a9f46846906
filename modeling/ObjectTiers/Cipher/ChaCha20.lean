/-
The ChaCha20 stream of RFC 8439. The state is four rows of four words; a round works on all four
columns at once, and on the diagonals after the rows are shifted against each other.
-/
import ObjectTiers.Bytes

namespace ObjectTiers.ChaCha20

/-- One of the four rows of a state. -/
structure Row where
  a : UInt32
  b : UInt32
  c : UInt32
  d : UInt32
  deriving DecidableEq, Repr

namespace Row

/-- The sums of the words of two rows, modulo `2 ^ 32`. -/
def add (x y : Row) : Row := ⟨x.a + y.a, x.b + y.b, x.c + y.c, x.d + y.d⟩

/-- The word `w` rotated left by `n` bits. -/
def rotateWord (n w : UInt32) : UInt32 := w <<< n ||| w >>> (32 - n)

/-- The words of the exclusive or, each rotated left by `n`. -/
def xorRotate (n : UInt32) (x y : Row) : Row :=
  ⟨rotateWord n (x.a ^^^ y.a), rotateWord n (x.b ^^^ y.b),
    rotateWord n (x.c ^^^ y.c), rotateWord n (x.d ^^^ y.d)⟩

/-- The row with its words moved one column to the left. -/
def shift (x : Row) : Row := ⟨x.b, x.c, x.d, x.a⟩

/-- The word of four bytes, the lowest first. -/
def word (b : Bytes) : UInt32 := .ofNat (Bytes.littleNat b)

/-- The row of sixteen bytes. -/
def ofBytes (b : Bytes) : Row :=
  ⟨word (b.take 4), word ((b.drop 4).take 4), word ((b.drop 8).take 4), word ((b.drop 12).take 4)⟩

/-- The sixteen bytes of a row, the lowest of each word first. -/
def toBytes (x : Row) : Bytes :=
  Bytes.littleBytes 4 x.a.toNat ++ Bytes.littleBytes 4 x.b.toNat
    ++ Bytes.littleBytes 4 x.c.toNat ++ Bytes.littleBytes 4 x.d.toNat

end Row

/-- The constants, two rows of key, and the counter with the nonce, as far as they are mixed. -/
structure State where
  p : Row
  q : Row
  r : Row
  s : Row
  deriving DecidableEq, Repr

namespace State

/-- A quarter round on each of the four columns. -/
def columns (x : State) : State :=
  let p := x.p.add x.q
  let s := x.s.xorRotate 16 p
  let r := x.r.add s
  let q := x.q.xorRotate 12 r
  let p := p.add q
  let s := s.xorRotate 8 p
  let r := r.add s
  let q := q.xorRotate 7 r
  ⟨p, q, r, s⟩

/-- A quarter round on each diagonal: the rows are shifted so that the diagonals stand as columns,
and shifted back. -/
def diagonals (x : State) : State :=
  let y := columns ⟨x.p, x.q.shift, x.r.shift.shift, x.s.shift.shift.shift⟩
  ⟨y.p, y.q.shift.shift.shift, y.r.shift.shift, y.s.shift⟩

/-- As many double rounds, each on the columns and then on the diagonals. -/
def rounds : Nat → State → State
  | 0, x => x
  | n + 1, x => rounds n x.columns.diagonals

/-- The constants, the key, a counter and the nonce. -/
def start (key nonce : Bytes) (counter : Nat) : State :=
  ⟨⟨0x61707865, 0x3320646e, 0x79622d32, 0x6b206574⟩, .ofBytes (key.take 16),
    .ofBytes (key.drop 16), .ofBytes (Bytes.littleBytes 4 counter ++ nonce)⟩

/-- The 64 bytes of a state, row by row. -/
def toBytes (x : State) : Bytes := x.p.toBytes ++ x.q.toBytes ++ x.r.toBytes ++ x.s.toBytes

end State

/-- The 64 bytes of the stream at a counter. -/
def block (key nonce : Bytes) (counter : Nat) : Bytes :=
  let x := State.start key nonce counter
  let y := x.rounds 10
  State.toBytes ⟨y.p.add x.p, y.q.add x.q, y.r.add x.r, y.s.add x.s⟩

/-- `n` blocks of the stream from a counter on. -/
def stream (key nonce : Bytes) (counter n : Nat) : Bytes :=
  (List.range n).flatMap fun i => block key nonce (counter + i)

/-- A message under the stream that starts at counter 1. Doing it twice gives the message back. -/
def apply (key nonce message : Bytes) : Bytes :=
  List.zipWith (· ^^^ ·) message (stream key nonce 1 (message.length / 64 + 1))

end ObjectTiers.ChaCha20
