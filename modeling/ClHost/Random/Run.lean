import ClHost.Kernel.Basic

/-!
# Filling arrays with random numbers
-/

namespace ClHost

structure FillRequest where
  distribution : Random.Distribution
  array : DeviceArray
  scale : Actual
  shift : Actual
  queue : Option Queue

namespace Host

open ClHost.Random

def newGenerator (g : Generator) : Host Nat := do
  let w ← get
  set { w with generators := w.generators.push g }
  return w.generators.size

variable (i : Nat) (r : FillRequest)

def generator : Host Generator := do
  return (← get).generators[i]?.getD default

def modifyGenerator (f : Generator → Generator) : Host Unit :=
  modify fun w => { w with generators := w.generators.modify i f }

def randomKernel (d : Distribution) (t : ElementType) (r : Recipe) : Host KernelId := do
  let g ← generator i
  match g.kernels.find? (·.1 == (d, t)) with
  | some (_, k) => return k
  | none =>
    let p ← newProgram g.context (text g.method d r)
    build p [] none .standard
    let k ← programKernel p (kernelName g.method d)
    let types := List.replicate (g.method.keyLength + 3) (.number .int32) |>.map PassedType.value
    declareTypes k (types ++ [.buffer, .value (.number .int64), .value (.number r.passed), .value (.number r.passed)])
    modifyGenerator i fun g => { g with kernels := g.kernels ++ [((d, t), k)] }
    return k

def startFill (form : Recipe) : Host EventId := do
  let a := r.array
  let k ← randomKernel i r.distribution a.type form
  let g ← generator i
  let c := g.counter
  let data ← lift a.data
  let q ← needQueue (r.queue <|> a.queue)
  let words := (g.key ++ [c.low, c.middle, c.high, c.last]).map fun n => Actual.literal (.int n)
  let s ← splay q a.size none
  call q k s.range (words ++ [.buffer data, .literal (.int (a.size * form.lanes)), r.scale, r.shift]) []

/-- Fills an array from the counter of a generator, which goes on by what the kernel was made for. -/
def fillRandom : Host EventId := do
  let form ← lift (recipe r.distribution r.array.type)
  let e ← startFill i r form
  modifyGenerator i fun g => { g with counter := g.counter.advance (r.array.size * form.draws) }
  return e

end Host

end ClHost
