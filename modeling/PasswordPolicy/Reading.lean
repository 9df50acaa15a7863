import PasswordPolicy.Diagnostic.Location

/-!
# Reading a piece of text

**A reading** is what a reader made of a text: the findings on the way, in the order they came up,
and an outcome. Most problems cost only the value they are in, and reading goes on behind it. Some
end the document early; some make all of it worthless.

**Staying within the text.** A reader only ever speaks of tails of the text it was given: the text
it leaves unread and the places of its findings. So findings can be located in the whole document,
and readers that are called again on what is left come to an end.

Main results: `Within.bind`, readers that stay within their texts compose.
-/

namespace PasswordPolicy

variable {α β : Type}

inductive Outcome (α : Type) where
  /-- A value was read, and this is left to read. -/
  | read (value : α) (rest : List Char)
  /-- The document ends here, and what was read before stands. -/
  | stop
  /-- The document is not to be used. -/
  | abandon

structure Reading (α : Type) where
  findings : List Finding
  outcome : Outcome α

namespace Reading

/-- A value without any problem. -/
def ok (value : α) (rest : List Char) : Reading α :=
  ⟨[], .read value rest⟩

/-- A problem that ends the document. -/
def stopped (problem : Problem) (tail : List Char) : Reading α :=
  ⟨[⟨problem, tail⟩], .stop⟩

/-- A problem that spoils the document. -/
def abandoned (problem : Problem) (tail : List Char) : Reading α :=
  ⟨[⟨problem, tail⟩], .abandon⟩

/-- The reading with a problem noted before all others. -/
def noting (problem : Problem) (tail : List Char) (r : Reading α) : Reading α :=
  ⟨⟨problem, tail⟩ :: r.findings, r.outcome⟩

/-- Go on with the value and what is left to read. -/
def bind (r : Reading α) (f : α → List Char → Reading β) : Reading β :=
  match r.outcome with
  | .read value rest => ⟨r.findings ++ (f value rest).findings, (f value rest).outcome⟩
  | .stop => ⟨r.findings, .stop⟩
  | .abandon => ⟨r.findings, .abandon⟩

def map (f : α → β) (r : Reading α) : Reading β :=
  r.bind fun value rest => ok (f value) rest

/-! ## Staying within the text -/

structure Within (text : List Char) (r : Reading α) : Prop where
  findings : ∀ f ∈ r.findings, f.tail <:+ text
  rest : ∀ value rest, r.outcome = .read value rest → rest <:+ text

namespace Within

variable {text tail rest : List Char} {value : α} {problem : Problem} {r : Reading α}

theorem trans {inner : List Char} (h : r.Within inner) (hi : inner <:+ text) : r.Within text :=
  ⟨fun f hf => (h.findings f hf).trans hi, fun v rest hr => (h.rest v rest hr).trans hi⟩

theorem ok (h : rest <:+ text) : (Reading.ok value rest).Within text :=
  ⟨by simp [Reading.ok], by simp [Reading.ok, h]⟩

theorem stopped (h : tail <:+ text) : (Reading.stopped problem tail : Reading α).Within text :=
  ⟨by simp [Reading.stopped, h], by simp [Reading.stopped]⟩

theorem abandoned (h : tail <:+ text) : (Reading.abandoned problem tail : Reading α).Within text :=
  ⟨by simp [Reading.abandoned, h], by simp [Reading.abandoned]⟩

theorem noting (h : tail <:+ text) (hr : r.Within text) :
    (r.noting problem tail).Within text :=
  ⟨by simpa [Reading.noting, h] using hr.findings, hr.rest⟩

theorem bind {f : α → List Char → Reading β} (h : r.Within text)
    (hf : ∀ value rest, rest <:+ text → (f value rest).Within text) : (r.bind f).Within text := by
  rcases r with ⟨fs, ⟨value, rest⟩ | _ | _⟩
  · have hw := hf value rest (h.rest value rest rfl)
    refine ⟨fun g hg => ?_, hw.rest⟩
    rcases List.mem_append.1 hg with hg | hg
    · exact h.findings g hg
    · exact hw.findings g hg
  · exact ⟨h.findings, by simp [Reading.bind]⟩
  · exact ⟨h.findings, by simp [Reading.bind]⟩

theorem map {f : α → β} (h : r.Within text) : (r.map f).Within text :=
  h.bind fun _ _ hs => .ok hs

end Within

end Reading

end PasswordPolicy
