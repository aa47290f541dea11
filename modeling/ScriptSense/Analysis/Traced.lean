import ScriptSense.Event

/-! Answers together with the steps taken to find them. The steps never influence an answer; they
tell which views were asked for, which records were read and what was reported, in order. -/
namespace ScriptSense

inductive Step where
  | viewed (className : String)
  | read (className : String)
  | reported (event : Event)

structure Traced (α : Type) where
  value : α
  steps : List Step

namespace Traced

variable {α β : Type}

def bind (a : Traced α) (f : α → Traced β) : Traced β :=
  ⟨(f a.value).value, a.steps ++ (f a.value).steps⟩

instance : Monad Traced where
  pure a := ⟨a, []⟩
  bind := bind

def report (event : Event) : Traced Unit := ⟨(), [.reported event]⟩

@[simp] theorem pure_value (a : α) : (pure a : Traced α).value = a := rfl

@[simp] theorem bind_value (a : Traced α) (f : α → Traced β) :
    (a >>= f).value = (f a.value).value := rfl

@[simp] theorem map_value (f : α → β) (a : Traced α) : (f <$> a).value = f a.value := rfl

end Traced
end ScriptSense
