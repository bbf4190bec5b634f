import VecLang.Text.Utf8
import VecLang.Text.Unicode.Table

/-!
# Capital and small letters

`lower` makes every capital letter small, one character for one. `foldName` is for comparing a
name with one that has only ASCII letters.
-/

namespace VecLang.Unicode

/-- Runs of capital letters beyond ASCII, with the small letter of the first of each run. -/
def capitalRuns : Runs := parseRuns hexNat
  ["c0-d6:e0 8-e:f8 130:69 78:ff 81:253 6:254 7:188 9-a:256 b:18c e:1dd f:259 90:25b 1:192 3:260",
   "4:263 6:269 7:268 8:199 c:26f d:272 f:275 a6:280 7:1a8 9:283 c:1ad e:288 f:1b0 b1-2:28a 7:292",
   "8:1b9 c:1bd c4:1c6 5:1c6 7:1c9 8:1c9 a:1cc f1:1f3 6:195 7:1bf 220:19e 3a:2c65 b:23c d:19a",
   "e:2c66 41:242 3:180 4:289 5:28c 376:377 f:3f3 86:3ac 8-a:3ad c:3cc e-f:3cd 91-a1:3b1 3-b:3c3",
   "cf:3d7 f4:3b8 7:3f8 9:3f2 a:3fb d-f:37b 400-f:450 10-2f:430 c0:4cf 531-56:561 10a0-c5:2d00",
   "7:2d27 d:2d2d 3a0-ef:ab70 f0-5:13f8 c90-ba:10d0 d-f:10fd e9e:df f08-f:1f00 18-d:1f10 28-f:1f20",
   "38-f:1f30 48-d:1f40 68-f:1f60 88-f:1f80 98-f:1f90 a8-f:1fa0 b8-9:1fb0 a-b:1f70 c:1fb3",
   "c8-b:1f72 c:1fc3 d8-9:1fd0 a-b:1f76 e8-9:1fe0 a-b:1f7a c:1fe5 f8-9:1f78 a-b:1f7c c:1ff3",
   "2126:3c9 a:6b b:e5 32:214e 60-f:2170 83:2184 4b6-cf:24d0 c00-2f:2c30 60:2c61 2:26b 3:1d7d",
   "4:27d d:251 e:271 f:250 70:252 2:2c73 5:2c76 e-f:23f f2:2cf3 a77d:1d79 8b:a78c d:265 aa:266",
   "b:25c c:261 d:26c e:26a b0:29e 1:287 2:29d 3:ab53 c4:a794 5:282 6:1d8e d0:a7d1 f5:a7f6",
   "ff21-3a:ff41 10400-27:10428 b0-d3:104d8 570-a:10597 c-8a:105a3 c-92:105b3 4-5:105bb",
   "c80-b2:10cc0 18a0-bf:118c0 6e40-5f:16e60 e900-21:1e922"]

/-- Runs in which every other character, from the first on, is a capital letter, with the small
letter of the first. -/
def alternatingRuns : Runs := parseRuns hexNat
  ["100-2e:101 32-6:133 9-47:13a a-76:14b 9-d:17a 82-4:183 a0-4:1a1 b3-5:1b4 cb-db:1cc e-ee:1df",
   "f2-4:1f3 8-21e:1f9 22-32:223 46-e:247 370-2:371 d8-ee:3d9 460-80:461 a-be:48b c1-d:4c2",
   "d0-52e:4d1 1e00-94:1e01 a0-fe:1ea1 f59-f:1f51 2c67-b:2c68 80-e2:2c81 b-d:2cec a640-6c:a641",
   "80-9a:a681 722-e:a723 32-6e:a733 79-b:a77a e-86:a77f 90-2:a791 6-a8:a797 b4-c2:a7b5 7-9:a7c8",
   "d6-8:a7d7"]

def lowerCode (code : Nat) : Nat :=
  if code < 0x80 then if 0x41 ≤ code && code ≤ 0x5a then code + 0x20 else code
  else match capitalRuns.find? code with
    | some (first, small) => small + (code - first)
    | none => match alternatingRuns.find? code with
      | some (first, small) => if (code - first) % 2 = 0 then small + (code - first) else code
      | none => code

/-- The text in small letters. What is not UTF-8 in it is replaced. -/
def lower (b : Bytes) : Bytes :=
  if b.all (· < 0x80) then Bytes.toLower b
  else Utf8.encode ((Utf8.chars b).map fun c => Char.ofNat (lowerCode c.toNat))

/-- A name with its ASCII capitals made small. The long s and the Kelvin sign count as capitals of
`s` and `k`. -/
def foldName : Bytes → Bytes
  | 0xc5 :: 0xbf :: rest => 0x73 :: foldName rest
  | 0xe2 :: 0x84 :: 0xaa :: rest => 0x6b :: foldName rest
  | c :: rest => (if 0x41 ≤ c && c ≤ 0x5a then c + 0x20 else c) :: foldName rest
  | [] => []

end VecLang.Unicode
