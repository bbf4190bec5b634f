import VecLang.Text.Unicode.Table

/-!
# Identifier characters

Beyond ASCII, an identifier is made of letters, decimal digits and nonspacing marks.
-/

namespace VecLang.Unicode

/-- Letters, decimal digits and nonspacing marks above U+007F. -/
def identifierRanges : Ranges := parseRanges
  ["aa b5 a c0-d6 8-f6 8-2c1 6-d1 e0-4 c e 300-74 6-7 a-d f 86 8-a c e-a1 3-f5 7-481 3-7 a-52f",
   "31-56 9 60-88 91-bd f c1-2 4-5 7 d0-ea f-f2 610-a 20-69 e-d3 5-c f-e8 a-fc f 710-4a d-b1 c0-f5",
   "a d 800-2d 40-5b 60-a 70-87 9-e 98-e1 3-902 4-3a c-d 41-8 d 50-63 6-f 71-81 5-c f-90 3-a8 a-b0",
   "2 6-9 c-d c1-4 d-e dc-d f-e3 6-f1 c e a01-2 5-a f-10 3-28 a-30 2-3 5-6 8-9 c 41-2 7-8 b-d 51",
   "9-c e 66-75 81-2 5-d f-91 3-a8 a-b0 2-3 5-9 c-d c1-5 7-8 d d0 e0-3 6-f f9-f b01 5-c f-10 3-28",
   "a-30 2-3 5-9 c-d f 41-4 d 55-6 c-d f-63 6-f 71 82-3 5-a e-90 2-5 9-a c e-f a3-4 8-a e-b9 c0 d",
   "d0 e6-f c00 4-c e-10 2-28 a-39 c-40 6-8 a-d 55-6 8-a d 60-3 6-f 80-1 5-c e-90 2-a8 a-b3 5-9",
   "c-d f c6 c-d dd-e e0-3 6-f f1-2 d00-1 4-c e-10 2-3d 41-4 d-e 54-6 f-63 6-f 7a-f 81 5-96 a-b1",
   "3-b d c0-6 a d2-4 6 e6-f e01-3a 40-e 50-9 81-2 4 6-a c-a3 5 7-bd c0-4 6 8-e d0-9 c-f f00 18-9",
   "20-9 35 7 9 40-7 9-6c 71-e 80-4 6-97 9-bc c6 1000-2a d-30 2-7 9-a d-49 50-5 8-61 5-6 e-82 5-6",
   "d-e 90-9 d a0-c5 7 d d0-fa c-248 a-d 50-6 8 a-d 60-88 a-d 90-b0 2-5 8-e c0 2-5 8-d6 8-310 2-5",
   "8-5a d-f 80-f a0-f5 8-d 401-66c f-7f 81-9a a0-ea f1-8 700-14 f-33 40-53 60-c e-70 2-3 80-b5",
   "7-d c6 9-d3 7 c-d e0-9 80b-d f-19 20-78 80-aa b0-f5 900-1e 20-2 7-8 32 9-b 46-6d 70-4 80-ab",
   "b0-c9 d0-9 a00-18 b 20-54 6 8-e 60 2 5-c 73-c f-89 90-9 a7 b0-d f-ce b00-3 5-34 6-a c 42 5-c",
   "50-9 6b-73 80-1 3-a0 2-5 8-9 b-e6 8-9 d f-f1 c00-23 c-33 6-7 40-9 d-7d 80-8 90-ba d-f d0-2",
   "4-e0 2-f6 8-a d00-f15 8-d 20-45 8-d 50-7 9 b d f-7d 80-b4 6-c e c2-4 6-c d0-3 6-b e0-c f2-4",
   "6-c 2071 f 90-c d0-c e1 5-f0 102 7 a-13 5 9-d 24 6 8 a-d f-39 c-f 45-9 e 83-4 c00-e4 b-f3",
   "d00-25 7 d 30-67 f 7f-96 a0-6 8-e b0-6 8-e c0-6 8-e d0-6 8-e e0-ff e2f 3005-6 2a-d 31-5 b-c",
   "41-96 9-a d-f a1-fa c-f 105-2f 31-8e a0-bf f0-f 400-4dbf e00-a48c d0-fd 500-60c 10-2b 40-6f",
   "74-d f-e5 f0-1 717-f 22-88 b-ca d0-1 3 5-9 f2-822 5-6 c 40-73 82-b3 c4-5 d0-9 e0-f7 b d-92d",
   "30-51 60-7c 80-2 4-b3 6-9 c-d cf-d9 e0-fe a00-2e 31-2 5-6 40-c 50-9 60-76 a c e-c2 db-d e0-a",
   "c-d f2-4 6 b01-6 9-e 11-6 20-6 8-e 30-5a c-69 70-e2 5 8 d f0-9 c00-d7a3 b0-c6 b-fb f900-a6d",
   "70-d9 b00-6 13-7 d-28 a-36 8-c e 40-1 3-4 6-b1 d3-d3d 50-8f 92-c7 f0-b e00-f 20-f 70-4 6-fc",
   "f10-9 21-3a 41-5a 66-be c2-7 a-f d2-7 a-c 10000-b d-26 8-3a c-d f-4d 50-d 80-fa 1fd 280-9c",
   "a0-d0 e0 300-1f 2d-40 2-9 50-7a 80-9d a0-c3 8-f 400-9d a0-9 b0-d3 8-fb 500-27 30-63 70-a c-8a",
   "c-92 4-5 7-a1 3-b1 3-9 b-c 600-736 40-55 60-7 80-5 7-b0 2-a 800-5 8 a-35 7-8 c f-55 60-76",
   "80-9e e0-f2 4-5 900-15 20-39 80-b7 e-f a00-3 5-6 c-13 5-7 9-35 8-a f 60-7c 80-9c c0-7 9-e6",
   "b00-35 40-55 60-72 80-91 c00-48 80-b2 c0-f2 d00-27 30-9 e80-a9 b-c b0-1 fd-f1c 27 30-50 70-85",
   "b0-c4 e0-f6 1001 3-46 66-75 f-81 3-af b3-6 9-a c2 d0-e8 f0-9 100-2b d-34 6-f 44 7 50-73 6 80-1",
   "3-b2 6-e c1-4 9-c f-da c 200-11 3-2b f-31 4 6-7 e-41 80-6 8 a-d f-9d f-a8 b0-df e3-a f0-9",
   "300-1 5-c f-10 3-28 a-30 2-3 5-9 b-d 40 50 d-61 6-c 70-4 400-34 8-f 42-4 6-a 50-9 e-61 80-af",
   "b3-8 a f-c0 2-5 7 d0-9 580-ae b2-5 c-d f-c0 d8-d 600-2f 33-a d f-40 4 50-9 80-ab d b0-5 7-8",
   "c0-9 700-1a d-f 22-5 7-b 30-9 40-6 800-2b f-37 9-a a0-e9 ff-906 9 c-13 5-6 8-2f 3b-c e-f 41 3",
   "50-9 a0-7 a-d0 4-7 a-b e0-1 3 a00-38 a-e 47 50-6 9-96 8-9 d b0-f8 c00-8 a-2e 30-6 8-d f-40",
   "50-9 72-8f 92-a7 a-b0 2-3 5-6 d00-6 8-9 b-36 a c-d f-47 50-9 60-5 7-8 a-89 90-1 5 7-8 a0-9",
   "ee0-f4 f00-2 4-10 2-33 6-a 40 2 50-9 b0 2000-399 480-543 f90-f0 3000-42f 40-55 4400-646",
   "6800-a38 40-5e 60-9 70-be c0-9 d0-ed f0-4 b00-36 40-3 50-9 63-77 d-8f e40-7f f00-4a f-50 8f-9f",
   "e0-1 3-4 7000-87f7 800-cd5 d00-8 aff0-3 5-b d-e b000-122 32 50-2 5 64-7 70-2fb c00-6a 70-c",
   "80-8 90-9 d-e cf00-2d 30-46 d167-9 7b-82 5-b aa-d 242-4 400-54 6-9c e-f a2 5-6 9-c e-b9 b d-c3",
   "5-505 7-a d-14 6-c e-39 b-e 40-4 6 a-50 2-6a5 8-c0 2-da c-fa c-714 6-34 6-4e 50-6e 70-88 a-a8",
   "a-c2 4-b e-ff a00-36 b-6c 75 84 9b-f a1-f f00-1e 25-a e000-6 8-18 b-21 3-4 6-a 30-6d 8f 100-2c",
   "30-d 40-9 e 290-ae c0-f9 4d0-f9 7e0-6 8-b d-e f0-e 800-c4 d0-6 900-4b 50-9 e00-3 5-1f 21-2 4 7",
   "9-32 4-7 9 b 42 7 9 b d-f 51-2 4 7 9 b d f 61-2 4 7-a c-72 4-7 9-c e 80-9 b-9b a1-3 5-9 b-bb",
   "fbf0-9 20000-a6df 700-b738 40-81d 20-cea1 b0-ebe0 f800-a1d 30000-134a 50-23af e0100-ef"]

def isIdentifierChar (c : Char) : Bool :=
  identifierRanges.contains c.toNat

end VecLang.Unicode
