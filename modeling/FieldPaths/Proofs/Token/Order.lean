import FieldPaths.Proofs.Token.Runs

/-!
# The order of the tokens

Whatever a scan takes from the front of a text, all that matters for where the tokens are is how
many bytes it has, and that a token has some. From it follows that tokens lie in the text, and that
each one ends before the next one starts, so that a place determines its token.
-/

namespace FieldPaths

namespace Token

variable {offset : Nat} {cs : List Char} {tokens : List Token}

/-- A token lies in the text and has bytes of its own. -/
theorem Scans.bounds (h : Scans offset cs tokens) :
    ∀ t ∈ tokens, offset ≤ t.start ∧ t.start < t.stop ∧ t.stop ≤ offset + byteCount cs := by
  induction h with
  | nil => nofun
  | @space offset c rest tokens _ _ ih =>
    intro t ht
    obtain ⟨hstart, hpos, hstop⟩ := ih t ht
    rw [← List.singleton_append, byteCount_append]
    omega
  | @comment offset cs rest tokens _ _ _ ih =>
    intro t ht
    obtain ⟨hstart, hpos, hstop⟩ := ih t ht
    rw [byteCount_append]
    omega
  | @token offset kind cs rest tokens hcs _ ih =>
    intro t ht
    have hpos := byteCount_pos hcs.ne_nil
    rw [byteCount_append]
    rcases List.mem_cons.mp ht with rfl | ht
    · rw [stop, utf8ByteSize_ofList]
      dsimp only
      omega
    · obtain ⟨hstart, hlt, hstop⟩ := ih t ht
      omega

/-- A token ends before the next one starts. -/
theorem Scans.pairwise (h : Scans offset cs tokens) :
    tokens.Pairwise fun s t ↦ s.stop ≤ t.start := by
  induction h with
  | nil => exact List.Pairwise.nil
  | space _ _ ih => exact ih
  | comment _ _ _ ih => exact ih
  | token _ h ih =>
    refine List.pairwise_cons.mpr ⟨fun t ht ↦ ?_, ih⟩
    rw [stop, utf8ByteSize_ofList]
    exact (h.bounds t ht).1

theorem scan_bounds {text : String} {t : Token} (ht : t ∈ scan text) :
    t.start < t.stop ∧ t.stop ≤ text.utf8ByteSize := by
  obtain ⟨-, hlt, hstop⟩ := (scans_scan text).bounds t ht
  rw [Nat.zero_add, byteCount_toList] at hstop
  exact ⟨hlt, hstop⟩

theorem scan_pairwise_start (text : String) :
    (scan text).Pairwise fun s t ↦ s.start < t.start :=
  (scans_scan text).pairwise.imp_of_mem fun hs _ hle ↦
    Nat.lt_of_lt_of_le (scan_bounds hs).1 hle

/-- No two tokens start at one byte. -/
theorem eq_of_getElem?_scan {text : String} {i j : Nat} {s t : Token}
    (hs : (scan text)[i]? = some s) (ht : (scan text)[j]? = some t) (h : s.start = t.start) :
    i = j := by
  obtain ⟨hi, rfl⟩ := List.getElem?_eq_some_iff.mp hs
  obtain ⟨hj, rfl⟩ := List.getElem?_eq_some_iff.mp ht
  have hlt (i j : Nat) (hi : i < (scan text).length) (hj : j < (scan text).length) (hij : i < j) :
      (scan text)[i].start < (scan text)[j].start :=
    List.pairwise_iff_getElem.mp (scan_pairwise_start text) i j hi hj hij
  rcases Nat.lt_trichotomy i j with hij | hij | hij
  · exact absurd h (Nat.ne_of_lt (hlt i j hi hj hij))
  · exact hij
  · exact absurd h.symm (Nat.ne_of_lt (hlt j i hj hi hij))

end Token

end FieldPaths
