import VecLang.Text.Unicode.Table

/-!
# Printable characters

A quoted text shows letters, marks, numbers, punctuation, symbols and the plain space as they
are and escapes everything else.
-/

namespace VecLang.Unicode

/-- Letters, marks, numbers, punctuation and symbols above U+007F. -/
def printableRanges : Ranges := parseRanges
  ["a1-c e-377 a-f 84-a c e-a1 3-52f 31-56 9-8a d-f 91-c7 d0-ea f-f4 606-1b d-dc e-70d 10-4a d-b1",
   "c0-fa d-82d 30-e 40-5b e 60-a 70-8e 98-e1 3-983 5-c f-90 3-a8 a-b0 2 6-9 c-c4 7-8 b-e d7 c-d",
   "f-e3 6-fe a01-3 5-a f-10 3-28 a-30 2-3 5-6 8-9 c e-42 7-8 b-d 51 9-c e 66-76 81-3 5-d f-91",
   "3-a8 a-b0 2-3 5-9 c-c5 7-9 b-d d0 e0-3 6-f1 9-f b01-3 5-c f-10 3-28 a-30 2-3 5-9 c-44 7-8 b-d",
   "55-7 c-d f-63 6-77 82-3 5-a e-90 2-5 9-a c e-f a3-4 8-a e-b9 e-c2 6-8 a-d d0 7 e6-fa c00-c",
   "e-10 2-28 a-39 c-44 6-8 a-d 55-6 8-a d 60-3 6-f 77-8c e-90 2-a8 a-b3 5-9 c-c4 6-8 a-d d5-6 d-e",
   "e0-3 6-f f1-3 d00-c e-10 2-44 6-8 a-f 54-63 6-7f 81-3 5-96 a-b1 3-b d c0-6 a f-d4 6 8-f e6-f",
   "f2-4 e01-3a f-5b 81-2 4 6-a c-a3 5 7-bd c0-4 6 8-e d0-9 c-f f00-47 9-6c 71-97 9-bc e-cc e-da",
   "1000-c5 7 d d0-248 a-d 50-6 8 a-d 60-88 a-d 90-b0 2-5 8-e c0 2-5 8-d6 8-310 2-5 8-5a d-7c",
   "80-99 a0-f5 8-d 400-67f 81-9c a0-f8 700-15 f-36 40-53 60-c e-70 2-3 80-dd e0-9 f0-9 800-d f-19",
   "20-78 80-aa b0-f5 900-1e 20-b 30-b 40 4-6d 70-4 80-ab b0-c9 d0-a e-a1b e-5e 60-7c f-89 90-9",
   "a0-d b0-ce b00-4c 50-7e 80-f3 c-c37 b-49 d-88 90-ba d-c7 d0-fa d00-f15 8-d 20-45 8-d 50-7 9 b",
   "d f-7d 80-b4 6-c4 6-d3 6-b d-ef f2-4 6-e 2010-27 30-5e 70-1 4-8e 90-c a0-c0 d0-f0 100-8b",
   "90-426 40-a 60-b73 6-95 7-cf3 9-d25 7 d 30-67 f-70 f-96 a0-6 8-e b0-6 8-e c0-6 8-e d0-6 8-e",
   "e0-e5d 80-99 b-f3 f00-d5 f0-b 3001-3f 41-96 9-ff 105-2f 31-8e 90-e3 f0-21e 20-a48c 90-c6",
   "d0-62b 40-f7 700-ca d0-1 3 5-9 f2-82c 30-9 40-77 80-c5 e-d9 e0-953 f-7c 80-cd f-d9 e-fe a00-36",
   "40-d 50-9 c-c2 db-f6 b01-6 9-e 11-6 20-6 8-e 30-6b 70-ed f0-9 c00-d7a3 b0-c6 b-fb f900-a6d",
   "70-d9 b00-6 13-7 d-36 8-c e 40-1 3-4 6-c2 d3-d8f 92-c7 f f0-e19 20-52 4-66 8-b 70-4 6-fc",
   "f01-be c2-7 a-f d2-7 a-c e0-6 8-e fc-d 10000-b d-26 8-3a c-d f-4d 50-d 80-fa 100-2 7-33 7-8e",
   "90-c a0 d0-fd 280-9c a0-d0 e0-fb 300-23 d-4a 50-7a 80-9d f-c3 8-d5 400-9d a0-9 b0-d3 8-fb",
   "500-27 30-63 f-7a c-8a c-92 4-5 7-a1 3-b1 3-9 b-c 600-736 40-55 60-7 80-5 7-b0 2-a 800-5 8",
   "a-35 7-8 c f-55 7-9e a7-f e0-f2 4-5 b-91b f-39 f 80-b7 c-cf d2-a03 5-6 c-13 5-7 9-35 8-a f-48",
   "50-8 60-9f c0-e6 b-f6 b00-35 9-55 8-72 8-91 9-c a9-f c00-48 80-b2 c0-f2 a-d27 30-9 e60-7e",
   "80-a9 b-d b0-1 fd-f27 30-59 70-89 b0-cb e0-f6 1000-4d 52-75 f-bc e-c2 d0-e8 f0-9 100-34 6-47",
   "50-76 80-df e1-f4 200-11 3-41 80-6 8 a-d f-9d f-a9 b0-ea f0-9 300-3 5-c f-10 3-28 a-30 2-3 5-9",
   "b-44 7-8 b-d 50 7 d-63 6-c 70-4 400-5b d-61 80-c7 d0-9 580-b5 8-dd 600-44 50-9 60-c 80-b9 c0-9",
   "700-1a d-2b 30-46 800-3b a0-f2 f-906 9 c-13 5-6 8-35 7-8 b-46 50-9 a0-7 a-d7 a-e4 a00-47 50-a2",
   "b0-f8 b00-9 c00-8 a-36 8-45 50-6c 70-8f 92-a7 9-b6 d00-6 8-9 b-36 a c-d f-47 50-9 60-5 7-8",
   "a-8e 90-1 3-8 a0-9 ee0-f8 f00-10 2-3a e-59 b0 c0-f1 f-2399 400-6e 70-4 80-543 f90-f2 3000-42f",
   "40-55 4400-646 6800-a38 40-5e 60-9 e-be c0-9 d0-ed f0-5 b00-45 50-9 b-61 3-77 d-8f e40-9a",
   "f00-4a f-87 f-9f e0-4 f0-1 7000-87f7 800-cd5 d00-8 aff0-3 5-b d-e b000-122 32 50-2 5 64-7",
   "70-2fb c00-6a 70-c 80-8 90-9 c-f cf00-2d 30-46 50-c3 d000-f5 100-26 9-72 b-ea 200-45 c0-d3",
   "e0-f3 300-56 60-78 400-54 6-9c e-f a2 5-6 9-c e-b9 b d-c3 5-505 7-a d-14 6-c e-39 b-e 40-4 6",
   "a-50 2-6a5 8-7cb e-a8b 9b-f a1-f f00-1e 25-a e000-6 8-18 b-21 3-4 6-a 30-6d 8f 100-2c 30-d",
   "40-9 e-f 290-ae c0-f9 f 4d0-f9 7e0-6 8-b d-e f0-e 800-c4 7-d6 900-4b 50-9 e-f c71-b4 d01-3d",
   "e00-3 5-1f 21-2 4 7 9-32 4-7 9 b 42 7 9 b d-f 51-2 4 7 9 b d f 61-2 4 7-a c-72 4-7 9-c e 80-9",
   "b-9b a1-3 5-9 b-bb f0-1 f000-2b 30-93 a0-e b1-f c1-f d1-f5 100-ad e6-202 10-3b 40-8 50-1 60-5",
   "300-6d7 c-ec f0-c 700-76 b-d9 e0-b f0 800-b 10-47 50-9 60-87 90-ad b0-1 900-a53 60-d 70-c 80-8",
   "90-bd f-c5 e-db e0-8 f0-8 b00-92 4-ca f0-9 20000-a6df 700-b738 40-81d 20-cea1 b0-ebe0 f800-a1d",
   "30000-134a 50-23af e0100-ef"]

def isPrintable (c : Char) : Bool :=
  if c.toNat < 0x80 then 0x20 ≤ c.toNat && c.toNat < 0x7f
  else printableRanges.contains c.toNat

end VecLang.Unicode
