/-!
Line breaks: however a text marks the end of a line, it is read with single line
feeds.
-/

namespace EsmBundle

/-- What is read for a character, given the one before it: a carriage return
is a line feed, and the line feed right after one is nothing. -/
def lineBreak (c before : Char) : Option Char :=
  if c = '\r' then some '\n'
  else if c = '\n' && before = '\r' then none
  else some c

/-- The characters with every carriage return, alone or before a line feed, read as one line
feed. -/
def unifyLineBreaks (cs : List Char) : List Char :=
  (cs.zip (' ' :: cs)).filterMap fun pair => lineBreak pair.1 pair.2

/-- No carriage return is left. -/
theorem carriageReturn_not_mem_unifyLineBreaks (cs : List Char) :
    '\r' ∉ unifyLineBreaks cs := by
  simp only [unifyLineBreaks, List.mem_filterMap, not_exists, not_and]
  rintro ⟨c, before⟩ - h
  simp only [lineBreak] at h
  split at h
  · simp at h
  · split at h <;> simp_all

end EsmBundle
