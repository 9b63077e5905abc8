import Hyperscript.Code.Context
import Hyperscript.Report.Note

/-! What generating code gives besides the text: the selectors read through
variables and the notes made, both in order. The text itself depends on the
script alone; `run` carries the reads into a context. -/
namespace Hyperscript

@[ext] structure Emission (α : Type) where
  value : α
  reads : List (String × String) := []
  notes : List Note := []

namespace Emission

protected def pure (value : α) : Emission α := { value }

protected def bind (first : Emission α) (next : α → Emission β) : Emission β :=
  let second := next first.value
  { value := second.value
    reads := first.reads ++ second.reads
    notes := first.notes ++ second.notes }

instance : Monad Emission where
  pure := Emission.pure
  bind := Emission.bind

instance : LawfulMonad Emission := LawfulMonad.mk' Emission
  (fun _ => by simp [Functor.map, Emission.bind, Emission.pure])
  (fun _ _ => by simp [Bind.bind, Pure.pure, Emission.bind, Emission.pure])
  (fun _ _ _ => by simp [Bind.bind, Emission.bind])

@[simp] theorem value_pure (value : α) : (pure value : Emission α).value = value := rfl

@[simp] theorem reads_pure (value : α) : (pure value : Emission α).reads = [] := rfl

@[simp] theorem notes_pure (value : α) : (pure value : Emission α).notes = [] := rfl

@[simp] theorem value_bind (first : Emission α) (next : α → Emission β) :
    (first >>= next).value = (next first.value).value := rfl

@[simp] theorem value_map (next : α → β) (first : Emission α) :
    (next <$> first).value = next first.value := rfl

@[simp] theorem reads_bind (first : Emission α) (next : α → Emission β) :
    (first >>= next).reads = first.reads ++ (next first.value).reads := rfl

@[simp] theorem reads_map (next : α → β) (first : Emission α) :
    (next <$> first).reads = first.reads := List.append_nil _

@[simp] theorem notes_map (next : α → β) (first : Emission α) :
    (next <$> first).notes = first.notes := List.append_nil _

@[simp] theorem notes_bind (first : Emission α) (next : α → Emission β) :
    (first >>= next).notes = first.notes ++ (next first.value).notes := rfl

/-- A read of a selector through a variable. -/
def read (key selector : String) : Emission Unit := { value := (), reads := [(key, selector)] }

def remark (note : Note) : Emission Unit := { value := (), notes := [note] }

def run (emission : Emission α) (context : Context) : Context :=
  context.cacheAll emission.reads

end Emission
end Hyperscript
