import VecLang.Text.Unicode.Table

/-!
# Character width and cluster classes

The tables behind display width: characters two columns wide, characters that take no column
of their own, and the classes that decide where one user-perceived character ends.
-/

namespace VecLang.Unicode

def wideRanges : Ranges := parseRanges
  ["1100-5f 231a-b 29-a e9-c f0 3 5fd-e 614-5 48-53 7f 93 a1 a-b bd-e c4-5 e d4 ea f2-3 5 a d 705",
   "a-b 28 4c e 53-5 7 95-7 b0 f b1b-c 50 5 e80-99 b-f3 f00-d5 f0-b 3000-3e 41-96 9-ff 105-2f",
   "31-8e 90-e3 f0-21e 20-47 50-4dbf e00-a48c 90-c6 960-7c c00-d7a3 f900-aff e10-9 30-52 4-66 8-b",
   "f01-60 e0-6 16fe0-4 f0-1 7000-87f7 800-cd5 d00-8 aff0-3 5-b d-e b000-122 32 50-2 5 64-7 70-2fb",
   "f004 cf 18e 91-a 200-2 10-3b 40-8 50-1 60-5 300-20 d-35 7-7c e-93 a0-ca f-d3 e0-f0 4 8-43e 40",
   "2-fc f-53d 4b-e 50-67 7a 95-6 a4 fb-64f 80-c5 c d0-2 5-7 c-f eb-c f4-c 7e0-b f0 90c-3a c-45",
   "7-ff a70-c 80-8 90-bd f-c5 e-db e0-8 f0-8 20000-fffd 30000-fffd"]

def combiningRanges : Ranges := parseRanges
  ["300-6f 483-7 7eb-f3 c00 4 f3 d00-1 135d-f a7f b0-ce b6b-73 dc0-ff 20d0-f0 cef-f1 de0-ff 3099-a",
   "a66f-72 4-d 9e-f f0-1 8e0-f1 fe20-f 101fd 376-a eab-c f46-50 82-5 1300-1 3b-c 66-c 70-4 6af0-4",
   "cf00-2d 30-46 d165-9 d-72 b-82 5-b aa-d 242-4 e000-6 8-18 b-21 3-4 6-a 8f 8d0-6"]

/-- Format characters that take no column. -/
def invisibleRanges : Ranges := parseRanges
  ["7f-9f ad 70f 180b-e 200b-f 28-e 6a-f feff ff9-b e-f"]

def extendRanges : Ranges := parseRanges
  ["300-6f 483-9 591-bd f c1-2 4-5 7 610-a 4b-5f 70 d6-c f-e4 7-8 a-d 711 30-4a a6-b0 eb-f3 d",
   "816-9 b-23 5-7 9-d 59-b 98-f ca-e1 3-902 3a c 41-8 d 51-7 62-3 81 bc e c1-4 d d7 e2-3 fe a01-2",
   "3c 41-2 7-8 b-d 51 70-1 5 81-2 bc c1-5 7-8 d e2-3 fa-f b01 3c e-f 41-4 d 55-7 62-3 82 be c0 d",
   "d7 c00 4 3c e-40 6-8 a-d 55-6 62-3 81 bc f c2 6 c-d d5-6 e2-3 d00-1 3b-c e 41-4 d 57 62-3 81",
   "ca f d2-4 6 f e31 4-a 47-e b1 4-c c8-e f18-9 35 7 9 71-e 80-4 6-7 d-97 9-bc c6 102d-30 2-7 9-a",
   "d-e 58-9 e-60 71-4 82 5-6 d 9d 35d-f 712-4 32-3 52-3 72-3 b4-5 7-d c6 9-d3 d 80b-d f 85-6 a9",
   "920-2 7-8 32 9-b a17-8 b 56 8-e 60 2 5-c 73-c f b0-ce b00-3 34-a c 42 6b-73 80-1 a2-5 8-9 b-d",
   "e6 8-9 d f-f1 c2c-33 6-7 d0-2 4-e0 2-8 d f4 8-9 dc0-ff 200c d0-f0 cef-f1 d7f e0-ff 302a-f 99-a",
   "a66f-72 4-d 9e-f f0-1 802 6 b 25-6 c c4-5 e0-f1 f 926-d 47-51 80-2 b3 6-9 c-d e5 a29-e 31-2",
   "5-6 43 c 7c b0 2-4 7-8 e-f c1 ec-d f6 be5 8 d fb1e e00-f 20-f f9e-f 101fd 2e0 376-a a01-3 5-6",
   "c-f 38-a f e5-6 d24-7 eab-c fd-f f46-50 82-5 1001 38-46 70 3-4 f-81 b3-6 9-a c2 100-2 27-b",
   "d-34 73 80-1 b6-e c9-c f 22f-31 4 6-7 e 41 df e3-a 300-1 3b-c e 40 57 66-c 70-4 438-f 42-4 6",
   "5e b0 3-8 a d f-c0 2-3 5af b2-5 c-d f-c0 dc-d 633-a d f-40 ab d b0-5 7 71d-f 22-5 7-b 82f-37",
   "9-a 930 b-c e 43 d4-7 a-b e0 a01-a 33-8 b-e 47 51-6 9-b 8a-96 8-9 c30-6 8-d f 92-a7 a-b0 2-3",
   "5-6 d31-6 a c-d f-45 7 90-1 5 7 ef3-4 f00-1 36-a 40 2 3440 7-55 6af0-4 b30-6 f4f 8f-92 e4",
   "bc9d-e cf00-2d 30-46 d165 7-9 e-72 b-82 5-b aa-d 242-4 a00-36 b-6c 75 84 9b-f a1-f e000-6 8-18",
   "b-21 3-4 6-a 8f 130-6 2ae ec-f 4ec-f 8d0-6 944-a f3fb-f e0020-7f 100-ef"]

/-- Spacing marks, which extend the cluster before them too. -/
def spacingRanges : Ranges := parseRanges
  ["903 3b e-40 9-c e-f 82-3 bf-c0 7-8 b-c a03 3e-40 83 be-c0 9 b-c b02-3 40 7-8 b-c bf c1-2 6-8",
   "a-c c01-3 41-4 82-3 be c0-1 3-4 7-8 a-b f3 d02-3 3f-40 6-8 a-c 82-3 d0-1 8-e f2-3 e33 b3 f3e-f",
   "7f 1031 b-c 56-7 84 715 34 b6 e-c5 7-8 923-6 9-b 30-1 3-8 a19-a 55 7 6d-72 b04 3b d-41 3-4 82",
   "a1 6-7 a e7 a-c e f2-3 c24-b 34-5 e1 f7 a823-4 7 80-1 b4-c3 952-3 83 b4-5 a-b e-c0 a2f-30 3-4",
   "4d eb e-f f5 be3-4 6-7 9-a c 11000 2 82 b0-2 7-8 12c 45-6 82 b3-5 f-c0 e 22c-e 32-3 5 e0-2",
   "302-3 3f 41-4 7-8 b-d 62-3 435-7 40-1 5 b1-2 9 b-c e c1 5b0-1 8-b e 630-2 b-c e ac e-f b6 726",
   "82c-e 38 931-5 7-8 d 40 2 d1-3 c-f e4 a39 57-8 97 c2f 3e a9 b1 4 d8a-e 93-4 6 ef5-6 f03 34-5",
   "e-f 41 6f51-87 f0-1 d166 d"]

/-- Characters that belong to the cluster after them. -/
def prependRanges : Ranges := parseRanges
  ["600-5 dd 70f 890-1 e2 d4e 110bd cd 1c2-3 93f 41 a3a 84-9 d46 f02"]

/-- Controls and format characters, which stand alone. -/
def controlRanges : Ranges := parseRanges
  ["80-9f ad 61c 180e 200b e-f 28-e 60-f feff ff0-b 13430-f bca0-3 d173-a e0000-1f 80-ff 1f0-fff"]

def pictographRanges : Ranges := parseRanges
  ["a9 e 203c 49 122 39 94-9 a9-a 31a-b 28 88 cf e9-f3 8-a 4c2 5aa-b b6 c0 fb-e 600-5 7-12 4-85",
   "90-705 8-12 4 6 d 21 8 33-4 44 7 c e 53-5 7 63-7 95-7 a1 b0 f 934-5 b05-7 1b-c 50 5 3030 d 297",
   "9 1f000-ff 10d-f 2f 6c-71 e-f 8e 91-a ad-e5 201-f 1a 2f 32-a c-f 49-3fa 400-53d 46-64f 80-ff",
   "774-f d5-ff 80c-f 48-f 5a-f 88-f ae-ff 90c-3a c-45 7-aff c00-ffd"]

end VecLang.Unicode
