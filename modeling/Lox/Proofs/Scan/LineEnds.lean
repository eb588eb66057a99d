import Lox.Proofs.Scan.Cursor
import Lox.Proofs.Scan.Spans

/-!
# Scanning across line ends

A source may be scanned in two pieces, cut at a line feed, exactly if no string is open there. An
open string would go on behind the line feed, while the error on it ends with the first piece.
-/

namespace Lox

/-- A string that is open is so up to the end of the source. -/
lemma stop_of_unterminated {source : String} {e : LexicalError} (mem : .error e ∈ scan source)
    (isOpen : e.cause = .unterminatedString) : e.span.stop = source.utf8ByteSize := by
  obtain ⟨text, about⟩ := standsIn_of_mem_scan (.error e) mem
  cases about with
  | unrecognized cause _ =>
    rw [isOpen] at cause
    cases cause
  | unterminated _ _ _ stop => exact stop

namespace Item

/-- An end mark reports no open string. -/
lemma terminated_append_endMark {items : List Item} {line offset : Nat} :
    Terminated (items ++ [.ok (.endMark line offset)]) ↔ Terminated items := by
  constructor
  · exact fun closed e mem => closed e (List.mem_append_left _ mem)
  · intro closed e mem
    rcases List.mem_append.mp mem with first | last
    · exact closed e first
    · cases List.mem_singleton.mp last

end Item

/-- With less than 2³² lines in all, scanning two sources with a line feed between them is safe. What
is found in front of the line feed is what is found in the first source, up to its end mark, and
what is found behind it is what is found in the second source, further on by the bytes and lines in
front, exactly if no string of the first source is open. -/
theorem scan_append_newline_iff {source source' : String}
    (few : source.toList.count '\n' + source'.toList.count '\n' < 2 ^ 32 - 2) :
    Cursor.scan? (source ++ "\n" ++ source') = some (scan (source ++ "\n" ++ source')) ∧
      ∃ items line, scan source = items ++ [.ok (.endMark line source.utf8ByteSize)] ∧
        (Item.Terminated items ↔ scan (source ++ "\n" ++ source') = items ++ (scan source').map
          (Item.shift (source.utf8ByteSize + 1) (source.toList.count '\n' + 1))) := by
  constructor
  · refine Cursor.scan?_eq ?_
    have newline : "\n".toList = ['\n'] := rfl
    rw [String.toList_append, String.toList_append, newline, List.count_append, List.count_append,
      List.count_singleton_self]
    omega
  · obtain ⟨items, line, eq, -⟩ := scan_eq_append source
    refine ⟨items, line, eq, fun closed => ?_, fun joined e mem isOpen => ?_⟩
    · rw [← Item.terminated_append_endMark, ← eq] at closed
      rw [scan_append_newline closed, eq, List.dropLast_concat]
    · -- The same error would end with the first source and with the whole.
      have before : .error e ∈ scan source := eq ▸ List.mem_append_left _ mem
      have whole : .error e ∈ scan (source ++ "\n" ++ source') :=
        joined ▸ List.mem_append_left _ mem
      have size := stop_of_unterminated whole isOpen
      rw [stop_of_unterminated before isOpen, String.utf8ByteSize_append,
        String.utf8ByteSize_append] at size
      have newline : "\n".utf8ByteSize = 1 := rfl
      omega

/-- The first source ends in a comment, behind two marks and a character that starts no token. -/
theorem scan_append_newline_of_comment :
    "<.@//é".toList.count '\n' + "\"\n\"=".toList.count '\n' < 2 ^ 32 - 2 ∧
      ∃ items line, scan "<.@//é" = items ++ [.ok (.endMark line 7)] ∧ Item.Terminated items ∧
        scan ("<.@//é" ++ "\n" ++ "\"\n\"=") =
          items ++ (scan "\"\n\"=").map (Item.shift 8 1) := by
  have count : "<.@//é".toList.count '\n' + "\"\n\"=".toList.count '\n' = 1 := by decide
  have few : "<.@//é".toList.count '\n' + "\"\n\"=".toList.count '\n' < 2 ^ 32 - 2 :=
    lt_of_eq_of_lt count (by decide)
  obtain ⟨-, items, line, eq, iff⟩ := scan_append_newline_iff few
  have causes : (Item.errors (scan "<.@//é")).map (·.cause) = [.unrecognized '@'] := by cbv
  have closed : Item.Terminated items := by
    rw [← Item.terminated_append_endMark, ← eq]
    intro e mem isOpen
    have reported : e.cause ∈ (Item.errors (scan "<.@//é")).map (·.cause) :=
      List.mem_map_of_mem (List.mem_filterMap.mpr ⟨.error e, mem, rfl⟩)
    rw [causes, isOpen, List.mem_singleton] at reported
    cases reported
  exact ⟨few, items, line, eq, closed, iff.mp closed⟩

end Lox
