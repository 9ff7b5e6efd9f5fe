import VgmPlayback.Storage.Source

/-!
# Sources in memory

A source over an image in memory stays a source over that image: `Source.inImage image k` is the one with the
cursor (and the head) at `k`, and each operation is an equation between such sources.  Moving never fails,
also beyond the end (`seek_inImage`); a read gives the byte at the cursor and moves past it if there is one
(`read_inImage_of_lt`); a longer read gives what is there of the bytes from the cursor on (`readFully_inImage`).
-/

namespace VgmPlayback

namespace Medium

/-- The medium of an image in memory, with the head at `k`. -/
def inImage (image : List UInt8) (k : Nat) : Medium where
  data := image.toArray
  head := k

private theorem read_inImage (image : List UInt8) (k n : Nat) :
    (inImage image k).read n =
      .ok ((image.drop k).take n) (inImage image (k + ((image.drop k).take n).length)) := by
  have hk : (inImage image k).transferSize n = min n (image.length - k) := by
    simp only [transferSize, inImage, List.filter_nil, List.foldl_nil, Option.getD_none, List.size_toArray]
    omega
  have hbytes : ((inImage image k).data.extract k (k + min n (image.length - k))).toList =
      (image.drop k).take n := by
    simp only [inImage, List.extract_toArray, List.extract_eq_take_drop, Nat.add_sub_cancel_left]
    rw [← List.length_drop, List.take_eq_take_iff]
    omega
  have hlen : ((image.drop k).take n).length = min n (image.length - k) := by
    rw [List.length_take, List.length_drop]
  rw [hlen, ← hbytes]
  show EStateM.Result.ok _ _ = _
  rw [show ({ inImage image k with readFaults := [] } : Medium) = inImage image k from rfl, hk]
  rfl

private theorem readSettled_inImage (image : List UInt8) (k n : Nat) :
    (inImage image k).readSettled n =
      .ok ((image.drop k).take n) (inImage image (k + ((image.drop k).take n).length)) := by
  rw [readSettled, read_inImage]

private theorem readFully_inImage (image : List UInt8) (k n : Nat) :
    (inImage image k).readFully n =
      ⟨(image.drop k).take n, none, inImage image (k + ((image.drop k).take n).length)⟩ := by
  -- one transfer brings all there is, and the one after it none
  induction n using Nat.strongRecOn generalizing k with
  | ind n ih =>
    rw [readFully]
    by_cases hn : n = 0
    · subst hn
      simp
    · rw [if_neg hn, readSettled_inImage]
      cases hb : (image.drop k).take n with
      | nil => simp
      | cons b bs =>
        have hlen := congrArg List.length hb
        simp only [List.length_take, List.length_drop, List.length_cons] at hlen
        have hrest : (image.drop (k + (bs.length + 1))).take (n - (bs.length + 1)) = [] := by
          rw [List.take_eq_nil_iff, List.drop_eq_nil_iff]
          omega
        simp only [List.length_cons]
        rw [ih _ (by omega), hrest]
        simp

end Medium

namespace Source

/-- The source over an image in memory, with the cursor at `k`. -/
def inImage (image : List UInt8) (k : Nat) : Source where
  medium := .inImage image k
  size := image.length
  pos := k

theorem ofBytes_eq_inImage (image : List UInt8) : ofBytes image = inImage image 0 := rfl

@[simp] theorem medium_inImage (image : List UInt8) (k : Nat) : (inImage image k).medium = .inImage image k := rfl

@[simp] theorem pos_inImage (image : List UInt8) (k : Nat) : (inImage image k).pos = k := rfl

@[simp] theorem remaining_inImage (image : List UInt8) (k : Nat) :
    (inImage image k).remaining = image.length - k := rfl

@[simp] theorem seek_inImage (image : List UInt8) (j k : Nat) :
    seek k (inImage image j) = .ok () (inImage image k) := rfl

theorem read_inImage_of_lt {image : List UInt8} {k : Nat} (hk : k < image.length) :
    read (inImage image k) = .ok (some image[k]) (inImage image (k + 1)) := by
  have hdrop : (image.drop k).take 1 = [image[k]] := by
    rw [List.drop_eq_getElem_cons hk]
    rfl
  have hread := Medium.readSettled_inImage image k 1
  rw [hdrop] at hread
  have hle : ¬ (inImage image k).size ≤ (inImage image k).pos := Nat.not_le.2 hk
  rw [read, if_neg hle, medium_inImage, hread]
  rfl

@[simp] theorem readFully_inImage (image : List UInt8) (k n : Nat) :
    (inImage image k).readFully n =
      ⟨(image.drop k).take n, none, inImage image (k + ((image.drop k).take n).length)⟩ := by
  have hread := Medium.readFully_inImage image k n
  simp only [readFully, inImage, hread]

@[simp] theorem take_inImage (image : List UInt8) (k n : Nat) :
    take n (inImage image k) =
      .ok ((image.drop k).take n) (inImage image (k + ((image.drop k).take n).length)) := by
  rw [take, readFully_inImage]

end Source

end VgmPlayback
