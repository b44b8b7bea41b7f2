import CanvasScript.Value

namespace CanvasScript

structure Heap where
  arrays : Array (Array Value)
  objects : Array (Fields Value)

namespace Heap

def empty : Heap := ⟨#[], #[]⟩

instance : Inhabited Heap := ⟨empty⟩

def items (h : Heap) (r : ArrayRef) : Array Value := h.arrays.getD r.index #[]

def fields (h : Heap) (r : ObjectRef) : Fields Value := h.objects.getD r.index .empty

def newArray (h : Heap) (items : Array Value) : ArrayRef × Heap :=
  (⟨h.arrays.size⟩, { h with arrays := h.arrays.push items })

def newObject (h : Heap) (fields : Fields Value) : ObjectRef × Heap :=
  (⟨h.objects.size⟩, { h with objects := h.objects.push fields })

def modifyArray (h : Heap) (r : ArrayRef) (f : Array Value → Array Value) : Heap :=
  { h with arrays := h.arrays.modify r.index f }

def setField (h : Heap) (r : ObjectRef) (key : String) (v : Value) : Heap :=
  { h with objects := h.objects.modify r.index (·.set key v) }

/-- The number of arrays and objects, which bounds how deep they can nest without a cycle. -/
def size (h : Heap) : Nat := h.arrays.size + h.objects.size

end Heap

end CanvasScript
