import Cerberus.Graph.Kernels
import Cerberus.Foundation.Accumulate

namespace Cerberus.Graph

open Foundation.Bytes Foundation.Accumulate

variable {F : Type}

def Outcome.ofAccess {ε α : Type} : Option α → Outcome ε α
  | some a => .ok a
  | none => .undefined

/-- `_mm256_loadu_ps` and `_mm512_loadu_ps`, for as many lanes. -/
def load (p : List F) (i lanes : Nat) : Option (List F) :=
  if i + lanes ≤ p.length then some ((p.drop i).take lanes) else none

/-- `_mm256_storeu_ps` and `_mm512_storeu_ps`. -/
def storeAt (p : List F) (i : Nat) (v : List F) : Option (List F) :=
  if i + v.length ≤ p.length then some (p.take i ++ (v ++ p.drop (i + v.length))) else none

def MC : Nat := 64

def NC : Nat := 64

def KC : Nat := 64

def MR : Nat := 4

def NR : Nat := 4

namespace Floats

variable (f : Floats F)

def memset (c : List F) (count : Nat) : Option (List F) :=
  if count ≤ c.length then some (store (List.replicate count f.zero) c) else none

def addTo (cs : List F) (i : Nat) (v : F) : Option (List F) := do
  let c ← cs[i]?
  put cs i (f.add c v)

/-- A buffer of `size` cells, of which `rows * cols` are filled row by row. -/
def pack (size rows cols : Nat) (read : Nat → Nat → Option F) : Option (List F) :=
  loop (List.range rows) (fun r ↦ loop (List.range cols) (fun c panel ↦ do
    let v ← read r c
    put panel (r * cols + c) v)) (List.replicate size f.zero)

/-- The block of `C` begins at the cell `start`. -/
def microKernel4x4 (aPanel bPanel : List F) (start ldc kc mr nr nc : Nat) (c : List F) :
    Option (List F) := do
  let cReg ← loop (List.range kc) (fun k ↦ loop (List.range mr) (fun i ↦
    loop (List.range nr) (fun j cReg ↦ do
      let x ← aPanel[i * kc + k]?
      let y ← bPanel[k * nc + j]?
      f.addTo cReg (i * NR + j) (f.mul x y)))) (List.replicate (MR * NR) f.zero)
  loop (List.range mr) (fun i ↦ loop (List.range nr) (fun j c ↦ do
    let v ← cReg[i * NR + j]?
    f.addTo c (start + (i * ldc + j)) v)) c

/-- The loops over the blocks, when `C` is zero. -/
def blocked (a b : List F) (m n k : Nat) : List F → Option (List F) :=
  loop (starts n NC) (fun j ↦
    let nc := min NC (n - j)
    loop (starts k KC) (fun s ↦
      let kc := min KC (k - s)
      loop (starts m MC) (fun i c ↦ do
        let mc := min MC (m - i)
        let bPanel ← f.pack (kc * nc) kc nc (fun kk jj ↦ b[(s + kk) * n + (j + jj)]?)
        let aPanel ← f.pack (mc * kc) mc kc (fun ii kk ↦ a[(i + ii) * k + (s + kk)]?)
        loop (starts mc MR) (fun ii ↦
          let mr := min MR (mc - ii)
          loop (starts nc NR) (fun jj ↦
            let nr := min NR (nc - jj)
            f.microKernel4x4 (aPanel.drop (ii * kc)) (bPanel.drop jj) ((i + ii) * n + (j + jj)) n
              kc mr nr nc)) c)))

def kernelMatmulBlocked (a b c : Pointer F) (m n k : Nat) : Written F :=
  onBlocks a b c (fun a b c ↦
    if m = 0 ∨ n = 0 ∨ k = 0 then .failed (lit "empty dimension")
    else .ofAccess ((f.memset c (m * n)).bind (f.blocked a b m n k)))

def fmadd (a : List F) (b : F) (c : List F) : List F :=
  List.zipWith (fun x z ↦ f.add (f.mul x b) z) a c

/-- The registers of the vector kernels: one for each column of the tile of `B`, a lane for each row
of the tile of `A`. -/
def registers (w : Nat) (aTile bTile : List F) (kc : Nat) : Option (List (List F)) :=
  (List.range kc).foldlM (fun regs kk ↦ do
    let a ← load aTile (kk * w) w
    let bs ← (List.range w).mapM (fun j ↦ bTile[kk * w + j]?)
    pure (List.zipWith (f.fmadd a) bs regs)) (List.replicate w (List.replicate w f.zero))

def avx2MicroKernel8x8 (aTile bTile : List F) (start ldc kc : Nat) (c : List F) :
    Option (List F) := do
  let tmp ← f.registers 8 aTile bTile kc
  loop (List.range 8) (fun i ↦ loop (List.range 8) (fun j c ↦ do
    let lanes ← tmp[j]?
    let v ← lanes[i]?
    f.addTo c (start + (i * ldc + j)) v)) c

def avx512MicroKernel16x16 (aTile bTile : List F) (start ldc kc : Nat) (c : List F) :
    Option (List F) := do
  let regs ← f.registers 16 aTile bTile kc
  loop (List.range 16) (fun i c ↦ do
    let lanes ← regs[i]?
    let row ← load c (start + i * ldc) 16
    storeAt c (start + i * ldc) (List.zipWith f.add row lanes)) c

/-- The loops of the vector kernels, when `C` is zero: `w` lanes, the sizes of the blocks, and the
size of the buffers for the tiles. -/
def tiled (w mcMax ncMax kcMax : Nat) (size : Nat → Nat)
    (micro : List F → List F → Nat → Nat → Nat → List F → Option (List F)) (a b : List F)
    (m n k : Nat) : List F → Option (List F) :=
  loop (starts n ncMax) (fun j ↦
    let nc := min ncMax (n - j) / w * w
    loop (starts k kcMax) (fun s ↦
      let kc := min kcMax (k - s)
      loop (starts m mcMax) (fun i ↦
        let mc := min mcMax (m - i) / w * w
        loop (starts mc w) (fun ii ↦ loop (starts nc w) (fun jj c ↦ do
          let aTile ← f.pack (size kc) kc w (fun kk r ↦ a[(i + ii + r) * k + (s + kk)]?)
          let bTile ← f.pack (size kc) kc w (fun kk c ↦ b[(s + kk) * n + (j + jj + c)]?)
          micro aTile bTile ((i + ii) * n + (j + jj)) n kc c)))))

def kernelMatmulBlockedAvx2 (a b c : Pointer F) (m n k : Nat) : Written F :=
  onBlocks a b c (fun a' b' c' ↦
    if m = 0 ∨ n = 0 ∨ k = 0 then .failed (lit "empty dimension")
    else if m % 8 ≠ 0 ∨ n % 8 ≠ 0 then f.kernelMatmulBlocked a b c m n k
    else .ofAccess ((f.memset c' (m * n)).bind
      (f.tiled 8 128 256 128 (fun kc ↦ kc * 8) f.avx2MicroKernel8x8 a' b' m n k)))

/-- The tiles are arrays on the stack; the cells that are not filled are not read. -/
def kernelMatmulBlockedAvx512 (a b c : Pointer F) (m n k : Nat) : Written F :=
  onBlocks a b c (fun a' b' c' ↦
    if m = 0 ∨ n = 0 ∨ k = 0 then .failed (lit "empty dimension")
    else if m % 16 ≠ 0 ∨ n % 16 ≠ 0 then f.kernelMatmulBlocked a b c m n k
    else .ofAccess ((f.memset c' (m * n)).bind
      (f.tiled 16 256 512 256 (fun _ ↦ 256 * 16) f.avx512MicroKernel16x16 a' b' m n k)))

end Floats

end Cerberus.Graph
