import Letterhead.Text.Basic
/-
# The licence texts that come along

Two header texts, each a doc block. They differ in the licence they name and in
a disclaimer that only one of them has.
-/
namespace Letterhead.Licence.Bundled

def docBlock (lines : List String) : Text :=
  "/**\n".toList ++
    lines.flatMap (fun l =>
      ' ' :: '*' :: ((if l.isEmpty then [] else ' ' :: l.toList) ++ ['\n'])) ++
    " */\n".toList

/-- What both texts begin with, up to the name of the licence and its address. -/
def notice (subject address : String) : List String :=
  ["Copyright since 2007 PrestaShop SA and Contributors",
   "PrestaShop is an International Registered Trademark & Property of PrestaShop SA",
   "",
   "NOTICE OF LICENSE",
   "",
   subject,
   "that is bundled with this package in the file LICENSE.md.",
   "It is also available through the world-wide-web at this URL:",
   address,
   "If you did not receive a copy of the license and are unable to",
   "obtain it through the world-wide-web, please send an email",
   "to license@prestashop.com so we can send you a copy immediately.",
   ""]

/-- What only the open software licence says. -/
def disclaimer : List String :=
  ["DISCLAIMER",
   "",
   "Do not edit or add to this file if you wish to upgrade PrestaShop to newer",
   "versions in the future. If you wish to customize PrestaShop for your",
   "needs please refer to https://devdocs.prestashop.com/ for more information.",
   ""]

def tags (licenceTag : String) : List String :=
  ["@author    PrestaShop SA and Contributors <contact@prestashop.com>",
   "@copyright Since 2007 PrestaShop SA and Contributors",
   licenceTag]

/-- The header of the open software licence. -/
def openSoftware : Text :=
  docBlock (notice "This source file is subject to the Open Software License (OSL 3.0)"
      "https://opensource.org/licenses/OSL-3.0" ++ disclaimer ++
    tags "@license   https://opensource.org/licenses/OSL-3.0 Open Software License (OSL 3.0)")

/-- The header of the academic free licence. -/
def academicFree : Text :=
  docBlock (notice "This source file is subject to the Academic Free License version 3.0"
      "https://opensource.org/licenses/AFL-3.0" ++
    tags "@license   https://opensource.org/licenses/AFL-3.0 Academic Free License version 3.0")

/-- The files of the folder of licence texts. -/
def files : List (Text × Text) :=
  [("osl.txt".toList, openSoftware), ("afl.txt".toList, academicFree)]

end Letterhead.Licence.Bundled
