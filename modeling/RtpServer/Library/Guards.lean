import RtpServer.Library.Buffer

/-!
# Regions between two guard patterns

A region is guarded when it starts with one pattern and ends with another. Patterns are
installed by two writes, and a write to a cell between them keeps both.
-/
namespace RtpServer.Library

variable {α : Type*}

structure Guarded (header trailer cells : List α) : Prop where
  front : cells.take header.length = header
  back : cells.drop (cells.length - trailer.length) = trailer

theorem Guarded.set {header trailer cells : List α} (h : Guarded header trailer cells) {k : Nat}
    (hfront : header.length ≤ k) (hback : k < cells.length - trailer.length) (a : α) :
    Guarded header trailer (cells.set k a) where
  front := by rw [List.take_set_of_le hfront, h.front]
  back := by rw [List.length_set, List.drop_set_of_lt hback, h.back]

theorem guarded_install {header trailer cells : List α}
    (hroom : header.length + trailer.length ≤ cells.length) :
    Guarded header trailer
      (Buffer.blit (Buffer.blit cells 0 header) (cells.length - trailer.length) trailer) := by
  have hheader : Buffer.blit cells 0 header = header ++ cells.drop header.length :=
    Buffer.blit_zero_of_fits cells (by omega)
  have hlen : (Buffer.blit cells 0 header).length = cells.length := Buffer.length_blit _ _ _
  have hfirst : ((Buffer.blit cells 0 header).take (cells.length - trailer.length)).length =
      cells.length - trailer.length := List.length_take_of_le (by omega)
  -- nothing is left behind the second pattern
  have hall : Buffer.blit (Buffer.blit cells 0 header) (cells.length - trailer.length) trailer =
      (Buffer.blit cells 0 header).take (cells.length - trailer.length) ++ trailer := by
    rw [Buffer.blit_of_fits _ (by omega), List.drop_of_length_le (by omega), List.append_nil]
  rw [hall]
  constructor
  · rw [List.take_append_of_le_length (by omega), List.take_take, Nat.min_eq_left (by omega),
      hheader, List.take_left]
  · rw [List.length_append, Nat.add_sub_cancel, List.drop_left]

end RtpServer.Library
