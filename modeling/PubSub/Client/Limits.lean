import PubSub.Client.Receive
import PubSub.Client.Request

/-!
# Where the receiver's limits are

Nothing bounds the body that `publish` accepts, while `receiving_thread` reads it into an array of
`BUFSIZ` bytes and makes a `std::string` of that.

* `staysInBounds_iff` — a published body fits if and only if it leaves room in the array for a NUL,
  or holds one.
-/

set_option autoImplicit false

namespace PubSub

open Cxx Text Numeral

/-! ## The buffers -/

/-- One round on `input` reads a header, takes an `int` from it, writes `buffer_3` only below
`BUFSIZ`, and finds a NUL in it. -/
def StaysInBounds (input : Bytes) : Prop :=
  ∃ buffer2 rest n, fgets BUFSIZ input = some (buffer2, rest) ∧ lengthNum (cstr buffer2) = .ok n ∧
    (fread (toSize n) rest).1.length ≤ BUFSIZ ∧
    (bufferString (fread (toSize n) rest).1).isSome = true

/-- For a header the receiver can read, the bounds are those of the bytes behind it. -/
theorem staysInBounds_header {t s : Bytes} {n : ℕ} (ht : Word t) (hs : Word s)
    (htl : ¬ lit "LENGTH" <:+: t) (hsl : ¬ lit "LENGTH" <:+: s)
    (hfit : (header t s n).length ≤ BUFSIZ - 1) (rest : Bytes) :
    StaysInBounds (header t s n ++ rest) ↔
      n ≤ intMax ∧ (rest.take n).length ≤ BUFSIZ ∧ (bufferString (rest.take n)).isSome = true := by
  have hnum : lengthNum (cstr (header t s n)) = stoi (decimal n ++ [newline]) := by
    rw [cstr_of_nul_free (nul_not_mem_header n ht hs), lengthNum_plain htl hsl
      (length_header_lt hfit)]
  have hdig : ∀ b ∈ [newline].head?, isDigit b = false := by simp; rfl
  rw [StaysInBounds, fgets_header ht hs hfit]
  constructor
  · rintro ⟨_, _, k, h, hk, hread, hnul⟩
    obtain ⟨rfl, rfl⟩ := Prod.mk.inj (Option.some.inj h)
    rw [hnum] at hk
    by_cases hn : n ≤ intMax
    · rw [stoi_decimal hn hdig] at hk
      obtain rfl := Except.ok.inj hk
      rw [toSize_natCast (hn.trans_lt (by decide)),
        fread_of_le (hn.trans (by decide))] at hread hnul
      exact ⟨hn, hread, hnul⟩
    · rw [stoi_decimal_of_gt (by omega) hdig] at hk
      cases hk
  · rintro ⟨hn, hread, hnul⟩
    refine ⟨_, _, n, rfl, hnum.trans (stoi_decimal hn hdig), ?_⟩
    rw [toSize_natCast (hn.trans_lt (by decide)), fread_of_le (hn.trans (by decide))]
    exact ⟨hread, hnul⟩

/-- A buffer of bytes that fit is converted unless they fill it without a NUL. -/
theorem bufferString_isSome_iff (data : Bytes) :
    (bufferString data).isSome = true ↔ data.length < BUFSIZ ∨ nul ∈ data := by
  rw [bufferString]
  split <;> simp_all

theorem staysInBounds_frame {t s b : Bytes} (ht : Word t) (hs : Word s)
    (htl : ¬ lit "LENGTH" <:+: t) (hsl : ¬ lit "LENGTH" <:+: s)
    (hfit : (header t s b.length).length ≤ BUFSIZ - 1) (rest : Bytes) :
    StaysInBounds (frame t s b ++ rest) ↔
      b.length < BUFSIZ ∨ (b.length = BUFSIZ ∧ nul ∈ b) := by
  have hmax : BUFSIZ ≤ intMax := by decide
  rw [frame, List.append_assoc, staysInBounds_header ht hs htl hsl hfit, List.take_left,
    bufferString_isSome_iff]
  constructor
  · rintro ⟨-, hle, hlt | hnul⟩
    · exact .inl hlt
    · rcases hle.lt_or_eq with h | h
      · exact .inl h
      · exact .inr ⟨h, hnul⟩
  · rintro (h | ⟨h, hnul⟩)
    · exact ⟨by omega, h.le, .inl h⟩
    · exact ⟨by omega, h.le, .inr hnul⟩

/-- **The bodies that fit.**  A published message that comes back in a frame with its full length is
handled within bounds if and only if its body is shorter than `BUFSIZ`, or just as long and with a
NUL in it. -/
theorem staysInBounds_iff (p : Publish) {s : Bytes} (rest : Bytes) (ht : Word p.topic.bytes)
    (hs : Word s) (htl : ¬ lit "LENGTH" <:+: p.topic.bytes) (hsl : ¬ lit "LENGTH" <:+: s)
    (hfit : (header p.topic.bytes s p.message.length).length ≤ BUFSIZ - 1) :
    StaysInBounds (frame p.topic.bytes s p.message.toString ++ rest) ↔
      p.message.length < BUFSIZ ∨ (p.message.length = BUFSIZ ∧ nul ∈ p.message.toString) := by
  rw [← p.message.length_toString] at hfit ⊢
  exact staysInBounds_frame ht hs htl hsl hfit rest

theorem staysInBounds_iff_hello :
    StaysInBounds (frame (lit "chat") (lit "bob") (Counted.ofBytes (lit "hello")).toString ++ []) :=
  (staysInBounds_iff ⟨chat, .ofBytes (lit "hello")⟩ [] (by decide) (by decide)
    (by decide) (by decide) (by decide)).mpr (.inl (by decide))

/-- A text of `BUFSIZ` letters leaves no room for the NUL. -/
theorem not_staysInBounds_full :
    ¬ StaysInBounds (frame (lit "chat") (lit "bob")
      (Counted.ofBytes (List.replicate BUFSIZ 97)).toString ++ []) := by
  have hfit : (header (lit "chat") (lit "bob") BUFSIZ).length ≤ BUFSIZ - 1 := by decide
  rw [Counted.toString_ofBytes, staysInBounds_frame (by decide) (by decide) (by decide) (by decide)
    (by rwa [List.length_replicate]), List.length_replicate]
  rintro (h | ⟨-, h⟩)
  · exact lt_irrefl _ h
  · exact absurd (List.eq_of_mem_replicate h) (by decide)

end PubSub
