import Mathlib
import FrontierDirectorate.Core.Sha256Fips
import FrontierDirectorate.Core.Sha256Memory

/-!
# Hashing

However a byte string is cut into pieces, the context yields the standard digest of
the whole.
-/
namespace FrontierDirectorate
open Fips180

/-- Pieces of a string of fewer than 2^61 bytes, fed to a context one after the other, give the
standard digest of the string, as the call for the whole string does. -/
theorem pieces_digest (pieces : List (List UInt8))
    (h : pieces.flatten.length < 2305843009213693952) :
    bytesBits (fdSha256FinalInternal
        (pieces.foldl fdSha256UpdateInternal fdSha256InitInternal)).toList =
          sha256 (bytesBits pieces.flatten) ∧
      bytesBits (fdSha256 pieces.flatten).toList = sha256 (bytesBits pieces.flatten) := by
  have hwhole := bytesBits_fdSha256 h
  rw [fdSha256FinalInternal_pieces, sha256Pieces_eq_flatten]
  exact ⟨hwhole, hwhole⟩

theorem pieces_digest_sample :
    bytesBits (fdSha256FinalInternal
        ([[], [0x61], [], [0x62, 0x63]].foldl fdSha256UpdateInternal fdSha256InitInternal)).toList =
          sha256 (bytesBits [0x61, 0x62, 0x63]) ∧
      bytesBits (fdSha256 [0x61, 0x62, 0x63]).toList = sha256 (bytesBits [0x61, 0x62, 0x63]) :=
  pieces_digest [[], [0x61], [], [0x62, 0x63]] (by decide)

end FrontierDirectorate
