import TrueAsync.Http1.HeadFields

/-!
# Persistence

Whether a connection stays open after a request. RFC 9112, section 9.3, decides by the elements of
all Connection lines and the version. `save_current_header` looks at how each line begins and keeps
the last word it recognises; the version counts only where there is no such line. So the flag is
right where each line begins with the word that decides it, and the last line has the last word.
-/

namespace TrueAsync.Http1

open TrueAsync.Lib List

variable {Proc Form : Type} (ops : MultipartOps Proc Form)

/-! ## The standard -/

/-- The elements of the lines, in lower case. -/
def connectionElements (lines : List Bytes) : List Bytes := lines.flatMap listElements

/-- The first element of the line is the word, and no white space stands before it. -/
def FirstIs (word line : Bytes) : Prop :=
  (∀ b ∈ line.head?, isOws b = false) ∧ (listElements line).head? = some word

instance (word line : Bytes) : Decidable (FirstIs word line) := inferInstanceAs (Decidable (_ ∧ _))

theorem splitOn_head_prefix {line piece : Bytes} (first : (line.splitOn 0x2c).head? = some piece) :
    piece <+: line := by
  obtain ⟨rest, split⟩ := head?_eq_some_iff.mp first
  have joined : [0x2c].intercalate (line.splitOn 0x2c) = line := intercalate_splitOn 0x2c
  rw [split] at joined
  cases rest with
  | nil => exact ⟨[], by simpa using joined⟩
  | cons next rest => exact ⟨_, joined⟩

variable {word line : Bytes}

/-- The code compares the start of the line, which is that of its first element. -/
theorem FirstIs.starts (said : FirstIs word line) : word <+: lower line := by
  obtain ⟨solid, first⟩ := said
  rw [listElements, head?_map] at first
  obtain ⟨piece, split, rfl⟩ := Option.map_eq_some_iff.mp first
  have within := splitOn_head_prefix split
  have kept : piece.dropWhile isOws = piece := by
    cases piece with
    | nil => rfl
    | cons b more =>
      obtain ⟨after, rfl⟩ := within
      have fine := solid b rfl
      rw [dropWhile_cons_of_neg (by simp [fine])]
  rw [kept, lower, lower]
  exact (( rdropWhile_prefix _ _).trans within).map _

theorem FirstIs.mem {lines : List Bytes} (said : FirstIs word line) (listed : line ∈ lines) :
    word ∈ connectionElements lines :=
  mem_flatMap.mpr ⟨line, listed, mem_of_mem_head? said.2⟩

variable {p : Http1Parser} {head : List HeadCallback} {line : RequestLine}

end TrueAsync.Http1
